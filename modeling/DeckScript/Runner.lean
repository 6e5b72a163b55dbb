import DeckScript.Files

/-!
# Programs

Charts are printed by programs. What programs there are and what they do is left open: a runner is
given a command and tells what is printed, or why the command failed. What a program prints may
depend on the files as they are then, and on the commands that have been run before, in which all
that programs remember has its origin. Programs leave the files of a script alone.

## Main definitions

* `Runner` — what running commands does
* `Runner.ofAnswers` — programs that look at nothing but their command
* `Runner.Blind` — programs that do not look at what sets two collections of files apart
-/

namespace DeckScript

/-- What running commands does. -/
structure Runner where
  /-- What a command prints or the reason why it fails, given how files read at the moment and the
  commands that were run before, the latest first. -/
  answer : (String → Except String String) → List (List String) → List String →
    Except String ByteArray

namespace Runner

/-- Programs whose answers depend on nothing but their command. -/
def ofAnswers (answer : List String → Except String ByteArray) : Runner :=
  ⟨fun _ _ command => answer command⟩

instance : Coe (List String → Except String ByteArray) Runner := ⟨ofAnswers⟩

/-- Programs answer the same with related files. -/
def Blind {φ : Type} [FileStore φ] (F : φ → φ → Prop) (runner : Runner) : Prop :=
  ∀ f g, F f g → ∀ calls command,
    runner.answer (FileStore.read f) calls command = runner.answer (FileStore.read g) calls command

theorem blind_ofAnswers {φ : Type} [FileStore φ] (F : φ → φ → Prop)
    (answer : List String → Except String ByteArray) : (ofAnswers answer).Blind F :=
  fun _ _ _ _ _ => rfl

end Runner

end DeckScript
