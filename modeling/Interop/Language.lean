/-
The four languages a managed type is named and converted in, and the two hosts
that bindings are written for.

Swift reaches native code through C and Kotlin reaches it through JNA, so every
host comes with exactly one language its native calls are written in.  The pairs
made of a host's own language and its native language are the only ones a value
is ever converted between.
-/

namespace Interop

/-- A language in which a type has a name and a value has a form. -/
inductive Language where
  /-- The native layer itself. -/
  | c
  /-- Kotlin's view of the native layer. -/
  | kotlinJna
  | kotlin
  | swift
  deriving DecidableEq, Repr, Inhabited

namespace Language

/-- Every language, in the order in which tables and reports list them. -/
def all : List Language := [.c, .kotlinJna, .kotlin, .swift]

theorem mem_all (l : Language) : l ∈ all := by cases l <;> decide

/-- The language's name in messages. -/
def text : Language → String
  | .c => "C"
  | .kotlinJna => "KotlinJNA"
  | .kotlin => "Kotlin"
  | .swift => "Swift"

/-- Whether bindings are written in this language. -/
def isHost : Language → Bool
  | .c | .kotlinJna => false
  | .kotlin | .swift => true

end Language

/-- A language that bindings are written for. -/
inductive Host where
  | kotlin
  | swift
  deriving DecidableEq, Repr, Inhabited

namespace Host

/-- The language the bindings are written in. -/
def language : Host → Language
  | .kotlin => .kotlin
  | .swift => .swift

/-- The language the host's calls to native code are written in. -/
def nativeLanguage : Host → Language
  | .kotlin => .kotlinJna
  | .swift => .c

/-- The host's name in messages. -/
def text (host : Host) : String := host.language.text

theorem isHost_language (host : Host) : host.language.isHost = true := by cases host <;> rfl

theorem isHost_nativeLanguage (host : Host) : host.nativeLanguage.isHost = false := by
  cases host <;> rfl

end Host

/-- One entry for each language. -/
structure PerLanguage (α : Type) where
  c : α
  kotlinJna : α
  kotlin : α
  swift : α
  deriving DecidableEq, Repr

namespace PerLanguage

variable {α : Type}

/-- The entry for one language. -/
def get (entries : PerLanguage α) : Language → α
  | .c => entries.c
  | .kotlinJna => entries.kotlinJna
  | .kotlin => entries.kotlin
  | .swift => entries.swift

/-- The table that holds `f l` for every language `l`. -/
def ofFn (f : Language → α) : PerLanguage α :=
  ⟨f .c, f .kotlinJna, f .kotlin, f .swift⟩

@[simp] theorem get_ofFn (f : Language → α) (l : Language) : (ofFn f).get l = f l := by
  cases l <;> rfl

end PerLanguage

end Interop
