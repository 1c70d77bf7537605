import FactCube.Text.Split

/-!
# Sessions

A session is the program as its surroundings see it: it asks for files and for the standard input,
one after the other, and ends with a result. What surrounds it answers each request, from a file
system or from a table of files; the session itself does nothing but decide.

Results:
* `Session.bind_assoc`: sessions that follow each other can be grouped either way.
-/

namespace FactCube.Cli

/-! ## Requests -/

/-- Why a file cannot be used. -/
inductive FileFault
  | notFound
  | denied
  | notDirectory
  | isDirectory
  | nameTooLong
  | other (text : String)
deriving DecidableEq

/-- The wording of a fault. -/
def FileFault.message : FileFault → String
  | .notFound => "No such file or directory (os error 2)"
  | .denied => "Permission denied (os error 13)"
  | .notDirectory => "Not a directory (os error 20)"
  | .isDirectory => "Is a directory (os error 21)"
  | .nameTooLong => "File name too long (os error 36)"
  | .other text => text

/-- A program that ends with a result. -/
inductive Session (α : Type)
  /-- It has ended. -/
  | done (result : α)
  /-- It needs the bytes of a file. -/
  | fetch (path : String) (next : Except FileFault (List UInt8) → Session α)
  /-- It needs the bytes of the standard input. -/
  | listen (next : List UInt8 → Session α)
  /-- It replaces a file, or creates it. -/
  | replace (path text : String) (next : Except FileFault Unit → Session α)

namespace Session

/-- Goes on after a session with its result. -/
def bind {α β : Type} : Session α → (α → Session β) → Session β
  | .done a, f => f a
  | .fetch path next, f => .fetch path fun answer => (next answer).bind f
  | .listen next, f => .listen fun bytes => (next bytes).bind f
  | .replace path text next, f => .replace path text fun answer => (next answer).bind f

instance : Monad Session where
  pure := .done
  bind := Session.bind

/-- A session goes on with its own result to itself. -/
theorem bind_done {α : Type} (s : Session α) : s.bind .done = s := by
  induction s with
  | done a => rfl
  | fetch path next ih => exact congrArg (Session.fetch path) (funext ih)
  | listen next ih => exact congrArg Session.listen (funext ih)
  | replace path text next ih => exact congrArg (Session.replace path text) (funext ih)

/-- Sessions that follow each other can be grouped either way. -/
theorem bind_assoc {α β γ : Type} (s : Session α) (f : α → Session β) (g : β → Session γ) :
    (s.bind f).bind g = s.bind fun a => (f a).bind g := by
  induction s with
  | done a => rfl
  | fetch path next ih => exact congrArg (Session.fetch path) (funext ih)
  | listen next ih => exact congrArg Session.listen (funext ih)
  | replace path text next ih => exact congrArg (Session.replace path text) (funext ih)

instance : LawfulMonad Session :=
  LawfulMonad.mk' Session bind_done (fun _ _ => rfl) bind_assoc

end Session

/-! ## Failures -/

/-- Why a program stops early: what it was doing, from the outermost part to the cause. -/
structure Failure where
  parts : List String
deriving DecidableEq

/-- The wording of a failure. -/
def Failure.message (f : Failure) : String := Text.joined ": " f.parts

/-- A session that may fail. -/
abbrev Attempt (α : Type) := ExceptT Failure Session α

/-- The failure of some parts. -/
def fail {α : Type} (parts : List String) : Attempt α := throw ⟨parts⟩

/-- A result that was found without asking for anything. -/
def liftExcept {α : Type} (result : Except Failure α) : Attempt α := ExceptT.mk (.done result)

/-- The bytes of a file, or what its fault leads to. -/
def fileBytes (path : String) (explain : FileFault → List String) : Attempt (List UInt8) :=
  ExceptT.mk (.fetch path fun answer => .done (answer.mapError fun fault => ⟨explain fault⟩))

/-- The bytes of the standard input. -/
def inputBytes : Attempt (List UInt8) := ExceptT.mk (.listen fun bytes => .done (.ok bytes))

/-- Writes a file, or stops with what its fault leads to. -/
def writeText (path text : String) (explain : FileFault → List String) : Attempt Unit :=
  ExceptT.mk (.replace path text fun answer =>
    .done (answer.mapError fun fault => ⟨explain fault⟩))

/-! ## Outcomes -/

/-- What a program leaves behind: its exit code and the texts on its two streams. -/
structure Outcome where
  code : Nat
  output : String
  messages : String
deriving DecidableEq

/-- The outcome of a program that printed something or failed. -/
def Outcome.ofResult : Except Failure Outcome → Outcome
  | .ok outcome => outcome
  | .error failure => ⟨1, "", "error: " ++ failure.message ++ "\n"⟩

end FactCube.Cli
