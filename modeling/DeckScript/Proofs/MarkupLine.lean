import DeckScript.Proofs.Sequence
import DeckScript.Proofs.Standard
import Mathlib.Data.List.Forall2

/-!
# Lines that only add to the markup

Most keywords of the standard vocabulary only add elements to the markup. What such a line adds,
or its fault, is decided by its tokens: neither the variables nor the text of the line matter, and
nothing but the output, the report and the journal changes. So two runs of such lines stay together
wherever their lines have the same tokens, whatever else the two runs differ in.

## Main definitions

* `IsMarkupKeyword` — a keyword that only adds elements to the markup
* `draw` — adding elements, or reporting a fault
* `Together` — two steps that end in the same way, in related states
* `KeptByDrawing` — a relation between states that two lines keep if they add the same

## Main results

* `exists_dispatch_eq_draw` — the tokens of a markup line decide what it does
* `KeptByDrawing.dispatch` — markup lines with the same tokens stay together
* `together_runSteps`, `together_filter` — runs of steps that stay together one by one
-/

namespace DeckScript

open Markup

/-! ## Markup keywords -/

/-- The keywords whose directives ask for something beyond their line. -/
def Vocabulary.askingKeywords : List String := ["include", "grid", "chart", "dchart"]

/-- A keyword of the language whose directive only adds elements to the markup. -/
def IsMarkupKeyword (keyword : String) : Prop :=
  (Vocabulary.standard.get? keyword).isSome ∧ keyword ∉ Vocabulary.askingKeywords

instance : DecidablePred IsMarkupKeyword := fun keyword => by
  rw [IsMarkupKeyword]
  infer_instance

/-- The directive adds elements that the tokens of its line decide. -/
def Directive.DrawsTokens (d : Directive) : Prop :=
  ∃ f, d.effect = .markup f ∧ ∀ r, f r = f ⟨0, r.tokens, ""⟩

namespace Vocabulary

open Directive

theorem drawsTokens_of_mem : ∀ e ∈ standardEntries, e.1 ∉ askingKeywords → e.2.DrawsTokens := by
  simp only [standardEntries, deckEntries, textEntries, imageEntries, shapeEntries, arrowEntries,
    externalEntries, List.forall_mem_append, List.forall_mem_cons, List.not_mem_nil,
    false_implies, implies_true, and_true]
  and_intros
  all_goals
    intro hkeyword
    first
    | exact absurd (by decide) hkeyword
    | exact ⟨_, rfl, fun _ => rfl⟩

theorem exists_drawsTokens {keyword : String} (h : IsMarkupKeyword keyword) :
    ∃ d, standard.get? keyword = some d ∧ d.DrawsTokens := by
  obtain ⟨d, hd⟩ := Option.isSome_iff_exists.1 h.1
  exact ⟨d, hd, drawsTokens_of_mem _ (Table.mem_of_get?_ofList hd) h.2⟩

end Vocabulary

/-! ## What a markup line does -/

variable {φ : Type}

/-- Add elements to the markup, or put the fault of a line into the report. -/
def draw (line : Nat) : Except Fault (List Element) → Step φ
  | .error fault, w => .finished (w.blame line fault)
  | .ok elements, w => w.emit elements

/-- What a line with a markup keyword adds to the markup, or its fault, is decided by its tokens. -/
theorem exists_dispatch_eq_draw [FileStore φ] {env : Environment}
    (hstandard : env.vocabulary = .standard) {s : Record} (hkeyword : IsMarkupKeyword s.keyword) :
    ∃ result, ∀ r : Record, r.tokens = s.tokens → ∀ n (w : World φ),
      dispatch env (n + 1) r w = draw r.line result (announce env r w) := by
  obtain ⟨d, hd, f, hf, htokens⟩ := Vocabulary.exists_drawsTokens hkeyword
  refine ⟨if d.arity.accepts s.length then f s else .error (.arity s.keyword d.synopsis), ?_⟩
  intro r hrs n w
  have hlength : r.length = s.length := congrArg List.length hrs
  have hword : r.keyword = s.keyword := congrArg (List.getD · 0 "") hrs
  have hdrawn : f r = f s := by rw [htokens r, htokens s, hrs]
  rw [dispatch_succ, execute, hstandard, hword, hd]
  simp only [Directive.ask, hf, hlength, hword, hdrawn]
  by_cases harity : d.arity.accepts s.length
  · rw [if_pos harity, if_pos harity]
    cases f s with
    | error fault => rfl
    | ok elements => rfl
  · rw [if_neg harity, if_neg harity]
    rfl

/-! ## Steps that stay together -/

/-- Both steps are finished, or both are refused, in states that `S` relates. -/
inductive Together (S : World φ → World φ → Prop) : Outcome φ → Outcome φ → Prop
  | finished {w v : World φ} : S w v → Together S (.finished w) (.finished v)
  | refused {w v : World φ} : S w v → Together S (.refused w) (.refused v)

/-- What adds to the markup in the lines `l` and `m` keeps the relation. -/
structure KeptByDrawing (S : World φ → World φ → Prop) (l m : Nat) : Prop where
  trace {w v : World φ} : S w v → ∀ tokens,
    S (w.note (.traced l tokens)) (v.note (.traced m tokens))
  blame {w v : World φ} : S w v → ∀ fault, S (w.blame l fault) (v.blame m fault)
  write {w v : World φ} : S w v → ∀ data, Together S (w.write data) (v.write data)

section Together

variable {S : World φ → World φ → Prop} {w v : World φ}

theorem Together.andThen {o p : Outcome φ} {f g : Step φ} (h : Together S o p)
    (hfg : ∀ w v, S w v → Together S (f w) (g v)) : Together S (o.andThen f) (p.andThen g) := by
  cases h with
  | finished h => exact hfg _ _ h
  | refused h => exact .refused h

theorem Together.world {o p : Outcome φ} (h : Together S o p) : S o.world p.world := by
  cases h with
  | finished h => exact h
  | refused h => exact h

/-- Writing stays together if the outputs are the same and can be exchanged for another one. -/
theorem together_write (houtput : w.output = v.output)
    (hS : ∀ output, S { w with output } { v with output }) (data : ByteArray) :
    Together S (w.write data) (v.write data) := by
  rw [World.write, World.write, houtput]
  rcases v.output.write data with ⟨output, _ | _⟩
  · exact .refused (hS output)
  · exact .finished (hS output)

/-- Steps that stay together one by one stay together when they are taken in order. -/
theorem together_runSteps {α β : Type*} {f : α → Step φ} {g : β → Step φ} {as : List α}
    {bs : List β} (h : List.Forall₂ (fun a b => ∀ w v, S w v → Together S (f a w) (g b v)) as bs)
    (hS : S w v) : Together S (runSteps (as.map f) w) (runSteps (bs.map g) v) := by
  induction h generalizing w v with
  | nil => exact .finished hS
  | cons hab _ ih => exact (hab w v hS).andThen fun _ _ h => ih h

theorem together_runRecords {exec : Record → Step φ} {rs ss : List Record}
    (h : List.Forall₂ (fun r s => ∀ w v, S w v → Together S (exec r w) (exec s v)) rs ss)
    (hS : S w v) : Together S (runRecords exec rs w) (runRecords exec ss v) := by
  rw [runRecords_eq_runSteps, runRecords_eq_runSteps]
  exact together_runSteps h hS

/-- Steps stay together with those that are left of them, if the others keep the relation while the
second run stands still. -/
theorem together_filter {α : Type*} {f g : α → Step φ} {keep : α → Bool} {as : List α}
    (hkeep : ∀ a ∈ as, keep a → ∀ w v, S w v → Together S (f a w) (g a v))
    (hdrop : ∀ a ∈ as, keep a = false → ∀ w v, S w v → Together S (f a w) (.finished v))
    (hS : S w v) : Together S (runSteps (as.map f) w) (runSteps ((as.filter keep).map g) v) := by
  induction as generalizing w v with
  | nil => exact .finished hS
  | cons a rest ih =>
    have hrest {w v : World φ} (hS : S w v) :
        Together S (runSteps (rest.map f) w) (runSteps ((rest.filter keep).map g) v) :=
      ih (fun b hb => hkeep b (List.mem_cons_of_mem a hb))
        (fun b hb => hdrop b (List.mem_cons_of_mem a hb)) hS
    cases ha : keep a with
    | true =>
      rw [List.filter_cons_of_pos ha]
      exact (hkeep a List.mem_cons_self ha w v hS).andThen fun _ _ h => hrest h
    | false =>
      rw [List.filter_cons_of_neg (by simp [ha])]
      have hstill := hdrop a List.mem_cons_self ha w v hS
      exact hstill.andThen (g := runSteps ((rest.filter keep).map g)) fun _ _ h => hrest h

theorem KeptByDrawing.draw {l m : Nat} (h : KeptByDrawing S l m)
    (result : Except Fault (List Element)) (hS : S w v) :
    Together S (draw l result w) (draw m result v) := by
  cases result with
  | error fault => exact .finished (h.blame hS fault)
  | ok elements => exact h.write hS _

theorem KeptByDrawing.announce {r s : Record} (h : KeptByDrawing S r.line s.line)
    (hrs : r.tokens = s.tokens) (env : Environment) (hS : S w v) :
    S (announce env r w) (announce env s v) := by
  rw [DeckScript.announce, DeckScript.announce, hrs]
  split
  · exact h.trace hS _
  · exact hS

/-- Markup lines with the same tokens stay together. -/
theorem KeptByDrawing.dispatch [FileStore φ] {env : Environment}
    (hstandard : env.vocabulary = .standard) {r s : Record} (h : KeptByDrawing S r.line s.line)
    (hrs : r.tokens = s.tokens) (hkeyword : IsMarkupKeyword s.keyword) (n m : Nat) (hS : S w v) :
    Together S (dispatch env (n + 1) r w) (dispatch env (m + 1) s v) := by
  obtain ⟨result, hresult⟩ := exists_dispatch_eq_draw (φ := φ) hstandard hkeyword
  rw [hresult r hrs, hresult s rfl]
  exact h.draw result (h.announce hrs env hS)

end Together

end DeckScript
