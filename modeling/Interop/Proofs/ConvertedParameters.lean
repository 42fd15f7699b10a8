/-
How parameters arrive, one by one, and the lines that make them arrive.

Parameters are gone through in order, and each one arrives either under its own name
or under one of the names that its converted value may get.  So there are as many
arrivals as parameters, in the same order, and the statements are those of the
converted ones among them.

If a parameter's name breaks no line, neither does any text that is made from it, and
then each statement is one line.
-/
import Interop.Proofs.FreshNames
import Interop.Proofs.TidyDescriptions

namespace Interop

open Listing

/-! ### Statements -/

namespace Host

/-- What a statement starts with that gives a value a name for good. -/
def bindingWord : Host → String
  | .kotlin => "val "
  | .swift => "let "

theorem bind_eq (host : Host) (name value : String) :
    host.bind name value = host.bindingWord ++ (name ++ (" = " ++ value)) := by
  cases host with
  | kotlin =>
      show "val " ++ name ++ "" ++ (" = " ++ value) = _
      rw [String.append_empty, String.append_assoc]
      rfl
  | swift =>
      show "let " ++ name ++ "" ++ (" = " ++ value) = _
      rw [String.append_empty, String.append_assoc]
      rfl

theorem full_bind (host : Host) {name value : String} (hname : OneLine name)
    (hvalue : Lines.Full value) : Lines.Full (host.bind name value) := by
  have hword : OneLine host.bindingWord := by cases host <;> decide
  rw [bind_eq]
  exact .append hword (.append hname (.append (by decide) hvalue))

theorem not_opensWith_bind {opening : String} (host : Host)
    (h : Lines.Apart opening host.bindingWord) (name value : String) :
    ¬Lines.OpensWith opening (host.bind name value) := by
  rw [bind_eq]
  exact h.not_opensWith _

end Host

/-- A call ends with its closing bracket. -/
theorem Lines.full_call {function : String} {arguments : List String} (hfunction : OneLine function)
    (harguments : ∀ argument ∈ arguments, OneLine argument) :
    Full (function ++ "(" ++ ", ".intercalate arguments ++ ")") :=
  .append ((hfunction.append (by decide)).append (.intercalate (by decide) harguments))
    (by decide)

namespace Crossing

/-! ### Names of converted values -/

theorem oneLine_candidateStem (n : Nat) : OneLine (candidateStem n) := by
  match n with
  | 0 | 1 => decide
  | n + 2 =>
      have hnumber : OneLine (toString (n + 1)) := by
        intro hbreak
        have hdigit := Nat.isDigit_of_mem_toDigits (by decide) (by decide)
          (Nat.toList_repr ▸ hbreak)
        cases hdigit
      exact .append (.append (by decide) hnumber) (by decide)

theorem oneLine_candidate {name : String} (h : OneLine name) (target : Language) (n : Nat) :
    OneLine (candidate name (valueMark target) n) := by
  have hmark : OneLine (valueMark target) := by cases target <;> decide
  rw [candidate_eq]
  exact .append (.append (oneLine_candidateStem n) h) hmark

/-! ### Arrivals -/

/-- How a parameter may arrive: as it is where its conversion leaves it alone, and otherwise
converted, under one of the names it may get. -/
inductive Arrives (source target written : Language) (param : Crossing) : Arrival → Prop
  | unchanged (h : param.conversion source target = .ok none) :
    Arrives source target written param (.unchanged (param.identifier written))
  | converted (n : Nat) (template : Template)
    (h : param.conversion source target = .ok (some template)) :
    Arrives source target written param
      (.converted (candidate param.name (valueMark target) n)
        (template.apply (param.identifier written)))

section

variable {source target written : Language}

/-- Each parameter arrives, in order, and nothing else does. -/
theorem arrives_of_arriveAmong {taken : List String} {params : List Crossing}
    {arrivals : List Arrival}
    (h : arriveAmong source target written taken params = .ok arrivals) :
    List.Forall₂ (Arrives source target written) params arrivals := by
  induction params generalizing taken arrivals with
  | nil =>
      cases h
      exact .nil
  | cons param rest ih =>
      obtain ⟨others, hconversion, hothers, rfl⟩ | ⟨template, others, hconversion, hothers, rfl⟩ :=
        arriveAmong_cons_eq_ok h
      · exact .cons (.unchanged hconversion) (ih hothers)
      · exact .cons (.converted _ template hconversion) (ih hothers)

theorem arrives_of_arrive {reserved : List String} {params : List Crossing}
    {arrivals : List Arrival}
    (h : arrive source target written reserved params = .ok arrivals) :
    List.Forall₂ (Arrives source target written) params arrivals :=
  arrives_of_arriveAmong h

variable {param : Crossing} {arrival : Arrival}

/-- What stands in a call for a tidy parameter breaks no line. -/
theorem Arrives.oneLine_argument (h : Arrives source target written param arrival)
    (hparam : param.Tidy) : OneLine arrival.argument := by
  cases h with
  | unchanged => exact hparam.identifier written
  | converted n => exact oneLine_candidate hparam.name target n

/-- The statement that converts a tidy parameter is one line. -/
theorem Arrives.full_statement (h : Arrives source target written param arrival)
    (hparam : param.Tidy) (host : Host) :
    ∀ statement ∈ arrival.statement? host, Lines.Full statement := by
  intro statement hstatement
  cases h with
  | unchanged => cases hstatement
  | converted n template hconversion =>
      cases hstatement
      exact host.full_bind (oneLine_candidate hparam.name target n)
        ((hparam.conversion hconversion).full_apply (hparam.identifier written))

variable {params : List Crossing} {arrivals : List Arrival}

theorem oneLine_arguments (h : List.Forall₂ (Arrives source target written) params arrivals)
    (hparams : ∀ param ∈ params, param.Tidy) :
    ∀ argument ∈ arguments arrivals, OneLine argument := by
  intro argument hargument
  obtain ⟨arrival, harrival, rfl⟩ := List.mem_map.mp hargument
  obtain ⟨param, hparam, harrives⟩ := exists_of_forall₂ h.flip harrival
  exact harrives.oneLine_argument (hparams param hparam)

theorem full_statements (h : List.Forall₂ (Arrives source target written) params arrivals)
    (hparams : ∀ param ∈ params, param.Tidy) (host : Host) :
    ∀ statement ∈ statements host arrivals, Lines.Full statement := by
  intro statement hstatement
  obtain ⟨arrival, harrival, hmade⟩ := List.mem_filterMap.mp hstatement
  obtain ⟨param, hparam, harrives⟩ := exists_of_forall₂ h.flip harrival
  exact harrives.full_statement (hparams param hparam) host statement hmade

end

/-! ### Lines -/

/-- The lines that convert parameters, with an empty one after them if there are any. -/
def conversionLines (host : Host) (arrivals : List Arrival) : List String :=
  match statements host arrivals with
  | [] => []
  | written => written ++ [""]

theorem level_conversionSteps (host : Host) (arrivals : List Arrival) :
    ∀ step ∈ conversionSteps host arrivals, step.Level := by
  unfold conversionSteps
  split
  · nofun
  · intro step hstep
    rcases List.mem_append.mp hstep with hwritten | hblank
    · obtain ⟨statement, -, rfl⟩ := List.mem_map.mp hwritten
      exact ⟨nofun, nofun⟩
    · rw [List.mem_singleton.mp hblank]
      exact ⟨nofun, nofun⟩

/-- Statements are spliced in as finished texts, and each of them is one line. -/
theorem flatMap_lines_conversionSteps {host : Host} {arrivals : List Arrival}
    (h : ∀ statement ∈ statements host arrivals, Lines.Full statement) :
    (conversionSteps host arrivals).flatMap Step.lines = conversionLines host arrivals := by
  have hlines (written : List String) (hwritten : ∀ statement ∈ written, Lines.Full statement) :
      (written.map Step.block).flatMap Step.lines = written := by
    induction written with
    | nil => rfl
    | cons first rest ih =>
        have hrest := ih fun statement hstatement =>
          hwritten statement (List.mem_cons_of_mem _ hstatement)
        rw [List.map_cons, List.flatMap_cons, hrest, Step.lines,
          (hwritten first List.mem_cons_self).ofText_eq, List.singleton_append]
  unfold conversionSteps conversionLines
  cases hwritten : statements host arrivals with
  | nil => rfl
  | cons first rest =>
      show ((first :: rest).map Step.block ++ [Step.blank]).flatMap Step.lines = _
      rw [List.flatMap_append, hlines _ (hwritten ▸ h)]
      rfl

theorem whole_conversionLines {host : Host} {arrivals : List Arrival}
    (h : ∀ statement ∈ statements host arrivals, Lines.Full statement) :
    ∀ line ∈ conversionLines host arrivals, Lines.Whole line := by
  unfold conversionLines
  split
  · nofun
  · intro line hline
    rcases List.mem_append.mp hline with hwritten | hblank
    · exact (h line hwritten).toWhole
    · rw [List.mem_singleton.mp hblank]
      exact Lines.whole_empty

/-- No line that converts a parameter starts with anything but the host's word for it. -/
theorem not_opensWith_conversionLines {opening : String} {host : Host}
    (hword : Lines.Apart opening host.bindingWord) (hempty : opening ≠ "")
    (arrivals : List Arrival) :
    ∀ line ∈ conversionLines host arrivals, ¬Lines.OpensWith opening line := by
  have hstatement : ∀ line ∈ statements host arrivals, ¬Lines.OpensWith opening line := by
    intro line hline
    obtain ⟨arrival, -, hmade⟩ := List.mem_filterMap.mp hline
    cases arrival with
    | unchanged => cases hmade
    | converted name expression =>
        cases hmade
        exact host.not_opensWith_bind hword name expression
  unfold conversionLines
  split
  · nofun
  · intro line hline
    rcases List.mem_append.mp hline with hwritten | hblank
    · exact hstatement line hwritten
    · rw [List.mem_singleton.mp hblank]
      simpa [Lines.OpensWith] using hempty

end Crossing

end Interop
