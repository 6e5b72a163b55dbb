import DeckScript.Proofs.StoreInvariant
import DeckScript.Proofs.TokenText
import Mathlib.Data.List.TakeWhile

/-!
# Names of variables

An assignment takes its first token for the name of a variable, whatever token that is. As long as
all names are identifiers, no other token is ever replaced: numbers, literals and single characters
mean themselves. A run that begins without variables is like that exactly if every assignment in it
that has no fault assigns to an identifier. A line that assigns to a number breaks it, and then the
number stands for something else in the lines behind it.

## Main definitions

* `Store.HasIdentifiers` — all names are identifiers

## Main results

* `kind_eq_identifier_iff` — the identifiers among the lexemes of a text
* `hasIdentifiers_iff` — when the names are identifiers at every moment of a run
* `numberScript_replaces_number` — a script that assigns to a number
-/

namespace DeckScript

open Lexeme Text

/-! ## Identifiers among the lexemes -/

theorem isWhiteSpace_eq_false_of_isLetter {c : Char} (hc : isLetter c) :
    isWhiteSpace c = false := by
  have hapart : ∀ r ∈ Letter.ranges, ∀ s ∈ WhiteSpace.ranges, r.2 < s.1 ∨ s.2 < r.1 := by
    decide +kernel
  rw [← Bool.not_eq_true]
  intro hblank
  obtain ⟨r, hr, hlow, hhigh⟩ := inRanges_iff.1 hc
  obtain ⟨s, hs, hlow', hhigh'⟩ := inRanges_iff.1 hblank
  rcases hapart r hr s hs with h | h <;> omega

theorem isWhiteSpace_eq_false_of_isIdentifierStart {c : Char} (hc : isIdentifierStart c) :
    isWhiteSpace c = false := by
  rw [isIdentifierStart, Bool.or_eq_true, decide_eq_true_eq] at hc
  rcases hc with hc | rfl
  · exact isWhiteSpace_eq_false_of_isLetter hc
  · decide +kernel

/-- A lexeme that begins like an identifier is one. -/
theorem extent_of_isIdentifierStart {c : Char} (hc : isIdentifierStart c) (rest : List Char) :
    extent c rest = (.identifier, runLength isIdentifierPart rest) := by
  have hne {d : Char} (hd : isIdentifierStart d = false) : c ≠ d := by
    rintro rfl
    rw [hc] at hd
    cases hd
  have hslash : c ≠ '/' := hne (by decide +kernel)
  have hquote : c ≠ '"' := hne (by decide +kernel)
  have hapostrophe : c ≠ '\'' := hne (by decide +kernel)
  have hbackquote : c ≠ backquote := hne (by decide +kernel)
  have hpoint : c ≠ '.' := hne (by decide +kernel)
  simp [extent, isWhiteSpace_eq_false_of_isIdentifierStart hc,
    isDigit_eq_false_of_isIdentifierStart hc, hslash, hquote, hapostrophe, hbackquote, hpoint, hc]

/-- Only what begins like an identifier is one. -/
theorem isIdentifierStart_of_extent {c : Char} {rest : List Char}
    (h : (extent c rest).1 = .identifier) : isIdentifierStart c := by
  by_contra hc
  simp only [extent, if_neg hc] at h
  split_ifs at h
  split at h <;> cases h

theorem take_runLength (p : Char → Bool) (s : List Char) :
    s.take (runLength p s) = s.takeWhile p :=
  (List.prefix_iff_eq_take.1 (List.takeWhile_prefix p)).symm

/-- A lexeme is an identifier by its kind if its characters are one. -/
theorem kind_eq_identifier_iff {s : List Char} {l : Lexeme} (hl : l ∈ lexemes s) :
    l.kind = .identifier ↔ IsIdentifier (String.ofList l.chars) := by
  fun_induction lexemes s with
  | case1 => cases hl
  | case2 c rest e ih =>
    rcases List.mem_cons.1 hl with rfl | hl
    · constructor
      · intro hkind
        have hc := isIdentifierStart_of_extent hkind
        refine ⟨c, rest.take e.2, String.toList_ofList, hc, fun d hd => ?_⟩
        rw [show e = _ from extent_of_isIdentifierStart hc rest, take_runLength] at hd
        exact List.mem_takeWhile_imp hd
      · rintro ⟨d, word, hchars, hd, -⟩
        rw [String.toList_ofList] at hchars
        obtain ⟨rfl, -⟩ := List.cons.inj hchars
        rw [show e = _ from extent_of_isIdentifierStart hd rest]
    · exact ih hl

/-! ## Names that are identifiers -/

/-- All names of the variables are identifiers. -/
def Store.HasIdentifiers (store : Store) : Prop :=
  ∀ name value, store.get? name = some value → IsIdentifier name

namespace Store.HasIdentifiers

variable {store : Store}

theorem empty : HasIdentifiers .empty := by
  intro name value h
  cases h

theorem insert (h : store.HasIdentifiers) {name : String} (hname : IsIdentifier name)
    (value : String) : HasIdentifiers (store.insert name value) := by
  intro key _ hkey
  rw [Table.get?_insert] at hkey
  split at hkey
  · rename_i heq
    exact heq ▸ hname
  · exact h key _ hkey

/-- Tokens that are no identifiers stand for themselves. -/
theorem resolve_eq (h : store.HasIdentifiers) {text : String} {l : Lexeme}
    (hl : l ∈ lexemes text.toList) (hkind : l.kind ≠ .identifier) :
    store.resolve (String.ofList l.chars) = String.ofList l.chars := by
  apply Store.resolve_of_get?_eq_none
  rw [Option.eq_none_iff_forall_ne_some]
  intro value hvalue
  exact hkind ((kind_eq_identifier_iff hl).2 (h _ value hvalue))

end Store.HasIdentifiers

/-! ## Runs -/

variable {φ : Type} [FileStore φ]

/-- An assignment without a fault leaves a value under its first token. -/
theorem Call.Assigns.exists_get? {env : Environment} {p : Call φ} (h : p.Assigns env) (n : Nat) :
    ∃ value, (dispatch env (n + 1) p.record p.world).world.store.get? p.record.keyword =
      some value := by
  obtain ⟨hkeyword, hassigns⟩ := h
  rw [dispatch_succ, Attempt.store_settle, execute, hkeyword]
  rcases store_runAssignment p.record (announce env p.record p.world) with
    ⟨hnot, -⟩ | ⟨-, value, hstore⟩
  · exact (hnot ((assigns_announce env p.record p.world).2 hassigns)).elim
  · refine ⟨value, ?_⟩
    dsimp only
    rw [hstore, Table.get?_insert_self]

/-- Let a run with the standard vocabulary begin without variables. At every moment of it all names
of variables are identifiers exactly if every assignment that it carries out without a fault has an
identifier for its first token. While the names are identifiers, every number, literal and single
character in a line means itself. -/
theorem hasIdentifiers_iff (includeLimit : Nat) (traced : Bool)
    (runner : Runner) (source : Source) (w : World φ) :
    let env : Environment := ⟨.standard, includeLimit, traced, runner⟩
    let start : World φ := { w with store := .empty }
    ((∀ v, Moment env source start v → v.store.HasIdentifiers) ↔
      ∀ p, Reaches env source start p → p.Assigns env → IsIdentifier p.record.keyword) ∧
    ∀ v : World φ, v.store.HasIdentifiers → ∀ text : String, ∀ l ∈ lexemes text.toList,
      l.kind ≠ .identifier → v.store.resolve (String.ofList l.chars) = String.ofList l.chars := by
  intro env start
  refine ⟨⟨fun hall p hp hassigns => ?_, fun hall v hv => ?_⟩,
    fun v hv text l hl hkind => hv.resolve_eq hl hkind⟩
  · obtain ⟨value, hvalue⟩ := hassigns.exists_get? 0
    exact hall _ (.after 1 hp) _ value hvalue
  · exact hv.keeps rfl (fun p hp hassigns value hstore => hstore.insert (hall p hp hassigns) value)
      .empty

/-! ## A line that assigns to a number -/

/-- A script that assigns to a number and then draws a circle with it. -/
def numberScript : Source := .ofText "5 = 3\ncircle 5 50 2\n"

/-- The name of the variable is no identifier, and the circle is drawn at its value. -/
theorem numberScript_replaces_number :
    let env : Environment := ⟨.standard, 16, false, .ofAnswers fun _ => .ok .empty⟩
    let w : World MemoryFiles := ⟨.empty, .ofSeed 1, .empty, .empty, .unlimited, [], []⟩
    (∃ v, Moment env numberScript w v ∧ ¬ v.store.HasIdentifiers) ∧
      tokenize "circle 5 50 2" = ["circle", "5", "50", "2"] ∧
      (compile env 1 numberScript w).2.output.text =
        "<ellipse xp=\"3\" yp=\"50\" wp=\"2\" hr=\"100\"/>\n" := by
  intro env w
  refine ⟨⟨_, .finish 1, fun h => ?_⟩, by decide +kernel, by decide +kernel⟩
  have hfive : (run env 1 numberScript w).world.store.get? "5" = some "3" := by decide +kernel
  obtain ⟨c, rest, hchars, hc, -⟩ := h "5" "3" hfive
  obtain ⟨rfl, -⟩ := List.cons.inj hchars
  exact absurd hc (by decide +kernel)

end DeckScript
