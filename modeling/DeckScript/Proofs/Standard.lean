import DeckScript.Run.Dispatch
import DeckScript.Vocabulary

/-!
# The directives of the standard vocabulary

What all directives of the standard vocabulary have in common. All but three of them only add
elements to the markup, and none of them looks at the number of its line.

## Main definitions

* `Request.IsStandard` — a request that a directive of the standard vocabulary may make
* `Directive.IgnoresLine` — what a directive asks for does not depend on the number of its line

## Main results

* `Vocabulary.forall_mem_standardEntries` — a property of all entries, shown by their kinds
* `Vocabulary.isStandard_of_ask` — the standard vocabulary makes standard requests only
* `Vocabulary.ignoresLine` — the standard vocabulary ignores the numbers of lines
-/

namespace DeckScript

/-! ## Entries of a table -/

namespace Table

variable {α : Type} {key : String} {value : α}

theorem get?_foldl_insert {t : Table α} {pairs : List (String × α)}
    (h : (pairs.foldl (fun t p => t.insert p.1 p.2) t).get? key = some value) :
    t.get? key = some value ∨ (key, value) ∈ pairs := by
  induction pairs generalizing t with
  | nil => exact .inl h
  | cons p rest ih =>
    rcases ih h with h | h
    · rw [get?_insert] at h
      split at h
      · rename_i hkey
        obtain rfl := Option.some.inj h
        exact .inr (hkey ▸ List.mem_cons_self)
      · exact .inl h
    · exact .inr (List.mem_cons_of_mem p h)

/-- What a table made of pairs answers is one of them. -/
theorem mem_of_get?_ofList {pairs : List (String × α)}
    (h : (ofList pairs).get? key = some value) : (key, value) ∈ pairs :=
  (get?_foldl_insert h).resolve_left (by simp)

end Table

/-! ## Requests -/

/-- A request that a directive of the standard vocabulary may make. -/
def Request.IsStandard : Request → Prop
  | .emit _ | .enter _ | .fillGrid _ _ | .chart _ => True
  | .set _ _ | .run _ => False

/-- All requests of a directive are standard. -/
def Directive.AsksStandard (d : Directive) : Prop :=
  ∀ store r request, d.ask store r = .ok request → request.IsStandard

/-- What a directive asks for does not depend on the number of its line. -/
def Directive.IgnoresLine (d : Directive) : Prop :=
  ∀ store r, d.ask store r = d.ask store ⟨0, r.tokens, r.text⟩

theorem exists_of_map_eq_ok {ε α β : Type} {x : Except ε α} {f : α → β} {b : β}
    (h : x.map f = .ok b) : ∃ a, x = .ok a ∧ f a = b := by
  cases x with
  | error e => cases h
  | ok a => exact ⟨a, rfl, Except.ok.inj h⟩

theorem exists_of_bind_eq_ok {ε α β : Type} {x : Except ε α} {f : α → Except ε β} {b : β}
    (h : x >>= f = .ok b) : ∃ a, x = .ok a ∧ f a = .ok b := by
  cases x with
  | error e => cases h
  | ok a => exact ⟨a, rfl, h⟩

namespace Directive

theorem exists_of_ask_eq_ok {d : Directive} {store : Store} {r : Record} {request : Request}
    (h : d.ask store r = .ok request) :
    match d.effect with
    | .markup f => ∃ elements, f r = .ok elements ∧ .emit elements = request
    | .request f => f store r = .ok request := by
  rw [ask] at h
  split at h
  · cases he : d.effect with
    | markup f => rw [he] at h; exact exists_of_map_eq_ok h
    | request f => rw [he] at h; exact h
  · cases h

/-- A directive that adds elements to the markup asks for nothing else. -/
theorem asksStandard_markup (arity : Arity) (synopsis : String)
    (f : Record → Except Fault (List Markup.Element)) :
    AsksStandard ⟨arity, synopsis, .markup f⟩ := by
  intro store r request h
  obtain ⟨elements, -, rfl⟩ := exists_of_ask_eq_ok h
  trivial

theorem asksStandard_inclusion : inclusion.AsksStandard := by
  intro store r request h
  obtain ⟨file, -, rfl⟩ := exists_of_map_eq_ok (exists_of_ask_eq_ok h)
  trivial

theorem asksStandard_grid : grid.AsksStandard := by
  intro store r request h
  obtain ⟨x, -, h⟩ := exists_of_bind_eq_ok (exists_of_ask_eq_ok h)
  obtain ⟨y, -, h⟩ := exists_of_bind_eq_ok h
  obtain ⟨xStep, -, h⟩ := exists_of_bind_eq_ok h
  obtain ⟨yStep, -, h⟩ := exists_of_bind_eq_ok h
  obtain ⟨limit, -, h⟩ := exists_of_bind_eq_ok h
  obtain ⟨file, -, h⟩ := exists_of_bind_eq_ok h
  obtain rfl := Except.ok.inj h
  trivial

theorem asksStandard_chart : chart.AsksStandard := by
  intro store r request h
  obtain rfl := Except.ok.inj (exists_of_ask_eq_ok h)
  trivial

end Directive

/-! ## The whole vocabulary -/

namespace Vocabulary

open Directive

/-- What holds of all entries that only add to the markup, and of the four other ones, holds of the
whole vocabulary. -/
theorem forall_mem_standardEntries {P : String × Directive → Prop}
    (hmarkup : ∀ keyword arity synopsis f, P (keyword, ⟨arity, synopsis, .markup f⟩))
    (hinclude : P ("include", inclusion)) (hgrid : P ("grid", grid)) (hchart : P ("chart", chart))
    (hdchart : P ("dchart", chart)) : ∀ e ∈ standardEntries, P e := by
  simp only [standardEntries, deckEntries, textEntries, imageEntries, shapeEntries, arrowEntries,
    externalEntries, List.forall_mem_append, List.forall_mem_cons, List.not_mem_nil,
    false_implies, implies_true, and_true]
  and_intros
  all_goals try exact hmarkup _ _ _ _
  · exact hinclude
  · exact hgrid
  · exact hchart
  · exact hdchart

theorem asksStandard_of_mem : ∀ e ∈ standardEntries, e.2.AsksStandard :=
  forall_mem_standardEntries (fun _ => asksStandard_markup) asksStandard_inclusion
    asksStandard_grid asksStandard_chart asksStandard_chart

theorem ignoresLine_of_mem : ∀ e ∈ standardEntries, e.2.IgnoresLine := by
  simp only [standardEntries, deckEntries, textEntries, imageEntries, shapeEntries, arrowEntries,
    externalEntries, List.forall_mem_append, List.forall_mem_cons, List.not_mem_nil,
    false_implies, implies_true, and_true]
  and_intros <;> (intro _ _; rfl)

variable {keyword : String} {d : Directive}

/-- The standard vocabulary neither assigns to variables nor runs texts. -/
theorem isStandard_of_ask (hd : standard.get? keyword = some d) {store : Store} {r : Record}
    {request : Request} (h : d.ask store r = .ok request) : request.IsStandard :=
  asksStandard_of_mem _ (Table.mem_of_get?_ofList hd) store r request h

/-- No directive of the standard vocabulary looks at the number of its line. -/
theorem ignoresLine (hd : standard.get? keyword = some d) : d.IgnoresLine :=
  ignoresLine_of_mem _ (Table.mem_of_get?_ofList hd)

end Vocabulary

end DeckScript
