import DeckScript.Markup.Escape
import Mathlib.Data.List.Basic
import Mathlib.Data.List.Nodup

/-!
# Entities and the characters that they stand for

Escaped text holds no reserved character but the one that begins entities, and that one begins one
of the three entities wherever it stands. So the entities can be taken back in a single pass, or one
kind after the other as long as the entity of the character that begins them comes last: what is put
in place of an entity never makes up another one with what is around it.

## Main definitions

* `entities` — the three entities with their characters
* `restore` — a text with characters in place of the entities of a table
* `escapeExcept` — a character as it stands in text once some entities have been taken back

## Main results

* `restoreChars_flatMap_escapeExcept` — what is left of escaped text when entities are taken back
* `restore_escape` — taking back all entities at once gives the text that was escaped
* `escape_faithful` — what escaping does to a text
-/

namespace DeckScript.Markup

/-- An entity and the character that it stands for. -/
abbrev Entity := String × Char

/-- The entity of the character that begins entities. -/
def ampersand : Entity := ("&amp;", '&')

/-- The entity of the character that opens a tag. -/
def lessThan : Entity := ("&lt;", '<')

/-- The entity of the character that closes a tag. -/
def greaterThan : Entity := ("&gt;", '>')

/-- The entities of markup. -/
def entities : List Entity := [ampersand, lessThan, greaterThan]

/-- Characters with each occurrence of an entity of the table replaced by its character, from left
to right. What is put in place is not looked at again. -/
def restoreChars (table : List Entity) : List Char → List Char
  | [] => []
  | c :: rest =>
    match table.find? fun e => e.1.toList.isPrefixOf (c :: rest) with
    | some e => e.2 :: restoreChars table (rest.drop (e.1.toList.length - 1))
    | none => c :: restoreChars table rest
termination_by s => s.length
decreasing_by
  · simp only [List.length_drop, List.length_cons]
    omega
  · simp

/-- A text with each occurrence of an entity of the table replaced by its character. -/
def restore (table : List Entity) (s : String) : String :=
  String.ofList (restoreChars table s.toList)

/-- The characters that are written as entities. -/
def IsReserved (c : Char) : Prop := c = '&' ∨ c = '<' ∨ c = '>'

/-! ## Entities -/

theorem exists_eq_cons_of_mem_entities {e : Entity} (h : e ∈ entities) :
    ∃ name, e.1.toList = '&' :: name ∧ '&' ∉ name := by
  simp only [entities, List.mem_cons, List.not_mem_nil, or_false] at h
  rcases h with rfl | rfl | rfl
  · exact ⟨['a', 'm', 'p', ';'], rfl, by decide⟩
  · exact ⟨['l', 't', ';'], rfl, by decide⟩
  · exact ⟨['g', 't', ';'], rfl, by decide⟩

/-- At a place where one entity stands no other one does. -/
theorem eq_of_prefix_of_mem_entities {e f : Entity} (he : e ∈ entities) (hf : f ∈ entities)
    {rest : List Char} (h : f.1.toList <+: e.1.toList ++ rest) : f = e := by
  simp only [entities, List.mem_cons, List.not_mem_nil, or_false] at he hf
  -- The characters behind the first one tell the entities apart.
  rcases he with rfl | rfl | rfl <;> rcases hf with rfl | rfl | rfl <;>
    simp_all [ampersand, lessThan, greaterThan]

theorem escapeChar_of_not_isReserved {c : Char} (h : ¬ IsReserved c) : escapeChar c = [c] := by
  simp only [IsReserved, not_or] at h
  rw [escapeChar, if_neg h.1, if_neg h.2.1, if_neg h.2.2]

/-- A character stands in text as its entity if it has one, and as itself otherwise. -/
theorem escapeChar_eq_or (c : Char) :
    (∃ e ∈ entities, e.2 = c ∧ escapeChar c = e.1.toList) ∨
      ¬ IsReserved c ∧ escapeChar c = [c] := by
  by_cases h : IsReserved c
  · left
    rcases h with rfl | rfl | rfl
    · exact ⟨ampersand, by simp [entities], rfl, rfl⟩
    · exact ⟨lessThan, by simp [entities], rfl, rfl⟩
    · exact ⟨greaterThan, by simp [entities], rfl, rfl⟩
  · exact .inr ⟨h, escapeChar_of_not_isReserved h⟩

/-! ## Taking entities back -/

section Restore

variable {table : List Entity} (htable : ∀ e ∈ table, e ∈ entities)
include htable

/-- No entity begins with another character than the one that begins all of them. -/
theorem restoreChars_cons_of_ne {c : Char} (hc : c ≠ '&') (rest : List Char) :
    restoreChars table (c :: rest) = c :: restoreChars table rest := by
  have hnone : table.find? (fun e => e.1.toList.isPrefixOf (c :: rest)) = none := by
    rw [List.find?_eq_none]
    intro e he hstarts
    obtain ⟨name, hname, -⟩ := exists_eq_cons_of_mem_entities (htable e he)
    rw [List.isPrefixOf_iff_prefix, hname, List.cons_prefix_cons] at hstarts
    exact hc hstarts.1.symm
  rw [restoreChars, hnone]

theorem restoreChars_append_of_notMem {word : List Char} (hword : '&' ∉ word) (rest : List Char) :
    restoreChars table (word ++ rest) = word ++ restoreChars table rest := by
  induction word with
  | nil => rfl
  | cons c word ih =>
    rw [List.mem_cons, not_or] at hword
    rw [List.cons_append, restoreChars_cons_of_ne htable (Ne.symm hword.1), ih hword.2,
      List.cons_append]

/-- An entity of the table becomes its character, and any other one stays. -/
theorem restoreChars_entity {e : Entity} (he : e ∈ entities) (rest : List Char) :
    restoreChars table (e.1.toList ++ rest) =
      (if e ∈ table then [e.2] else e.1.toList) ++ restoreChars table rest := by
  have hstarts (f : Entity) (hf : f ∈ table) :
      f.1.toList.isPrefixOf (e.1.toList ++ rest) ↔ f = e := by
    rw [List.isPrefixOf_iff_prefix]
    constructor
    · exact eq_of_prefix_of_mem_entities he (htable f hf)
    · rintro rfl
      exact List.prefix_append _ _
  obtain ⟨name, hname, hclean⟩ := exists_eq_cons_of_mem_entities he
  split
  · rename_i hmem
    have hfind : table.find? (fun f => f.1.toList.isPrefixOf ('&' :: (name ++ rest))) = some e := by
      rw [← List.cons_append, ← hname]
      cases hfound : table.find? fun f => f.1.toList.isPrefixOf (e.1.toList ++ rest) with
      | none => exact absurd ((hstarts e hmem).2 rfl) (List.find?_eq_none.1 hfound e hmem)
      | some f =>
        have hfirst : f.1.toList.isPrefixOf (e.1.toList ++ rest) := by
          simpa using List.find?_some hfound
        rw [(hstarts f (List.mem_of_find?_eq_some hfound)).1 hfirst]
    rw [hname, List.cons_append, restoreChars, hfind]
    dsimp only
    rw [hname, List.length_cons, Nat.add_sub_cancel, List.drop_left, List.singleton_append]
  · rename_i hmem
    have hfind : table.find? (fun f => f.1.toList.isPrefixOf ('&' :: (name ++ rest))) = none := by
      rw [← List.cons_append, ← hname, List.find?_eq_none]
      intro f hf hfirst
      obtain rfl := (hstarts f hf).1 hfirst
      exact hmem hf
    rw [hname, List.cons_append, restoreChars, hfind]
    dsimp only
    rw [restoreChars_append_of_notMem htable hclean, List.cons_append]

end Restore

/-- A character as it stands in escaped text in which the entities of the table are taken back. -/
def escapeExcept (table : List Entity) (c : Char) : List Char :=
  if c ∈ table.map Prod.snd then [c] else escapeChar c

theorem eq_of_snd_eq {e f : Entity} (he : e ∈ entities) (hf : f ∈ entities) (h : e.2 = f.2) :
    e = f :=
  List.inj_on_of_nodup_map (by decide : (entities.map Prod.snd).Nodup) he hf h

/-- Text in which some entities are taken back and others still stand: the character that begins
entities is not among those taken back, so no entity has come into being. -/
theorem restoreChars_flatMap_escapeExcept {table done : List Entity}
    (htable : ∀ e ∈ table, e ∈ entities) (hdone : '&' ∉ done.map Prod.snd) (s : List Char) :
    restoreChars table (s.flatMap (escapeExcept done)) =
      s.flatMap (escapeExcept (table ++ done)) := by
  induction s with
  | nil => rw [List.flatMap_nil, restoreChars, List.flatMap_nil]
  | cons c s ih =>
    rw [List.flatMap_cons, List.flatMap_cons, ← ih]
    -- A character that was taken back is not the one that begins entities, so it stays.
    by_cases hback : c ∈ done.map Prod.snd
    · have hc : c ≠ '&' := by
        rintro rfl
        exact hdone hback
      have hboth : c ∈ (table ++ done).map Prod.snd := by
        rw [List.map_append]
        exact List.mem_append_right _ hback
      rw [escapeExcept, if_pos hback, escapeExcept, if_pos hboth, List.singleton_append,
        restoreChars_cons_of_ne htable hc, List.singleton_append]
    · -- Any other one is as it was escaped, and this table alone decides whether it is taken back.
      have hboth : c ∈ (table ++ done).map Prod.snd ↔ c ∈ table.map Prod.snd := by
        rw [List.map_append, List.mem_append, or_iff_left hback]
      rw [escapeExcept, if_neg hback, escapeExcept, if_congr hboth rfl rfl]
      rcases escapeChar_eq_or c with ⟨e, he, rfl, hchar⟩ | ⟨hplain, hchar⟩
      · have hmem : e.2 ∈ table.map Prod.snd ↔ e ∈ table := by
          rw [List.mem_map]
          constructor
          · rintro ⟨f, hf, hsnd⟩
            exact eq_of_snd_eq (htable f hf) he hsnd ▸ hf
          · exact fun hmem => ⟨e, hmem, rfl⟩
        rw [hchar, restoreChars_entity htable he, if_congr hmem rfl rfl]
      · have hc : c ≠ '&' := fun hc => hplain (.inl hc)
        rw [hchar, ite_self, List.singleton_append, restoreChars_cons_of_ne htable hc,
          List.singleton_append]

/-- Nothing is left of escaping when the entities of all reserved characters are taken back. -/
theorem flatMap_escapeExcept {table : List Entity}
    (htable : ∀ c, IsReserved c → c ∈ table.map Prod.snd) (s : List Char) :
    s.flatMap (escapeExcept table) = s := by
  have hchar (c : Char) : escapeExcept table c = [c] := by
    rw [escapeExcept]
    split
    · rfl
    · rename_i hmem
      exact escapeChar_of_not_isReserved (mt (htable c) hmem)
  rw [funext hchar, List.flatMap_singleton']

theorem escapeChars_eq_flatMap (s : List Char) :
    escapeChars s = s.flatMap (escapeExcept []) := rfl

/-- Taking back all entities at once gives the text that was escaped. -/
theorem restore_escape (s : String) : restore entities (escape s) = s := by
  have hall : ∀ c, IsReserved c → c ∈ (entities ++ []).map Prod.snd := by
    rintro c (rfl | rfl | rfl) <;> decide
  rw [restore, escape, String.toList_ofList, escapeChars_eq_flatMap,
    restoreChars_flatMap_escapeExcept (fun _ he => he) (by decide), flatMap_escapeExcept hall,
    String.ofList_toList]

/-- Different texts are different in markup. -/
theorem escape_injective : Function.Injective escape :=
  Function.LeftInverse.injective restore_escape

/-- So does taking them back one kind after the other, if the character that begins entities comes
last. -/
theorem restore_restore_restore_escape (s : String) :
    restore [ampersand] (restore [greaterThan] (restore [lessThan] (escape s))) = s := by
  have hsingle {e : Entity} (he : e ∈ entities) : ∀ f ∈ [e], f ∈ entities := by
    rintro f hf
    rwa [List.mem_singleton.1 hf]
  have hall : ∀ c, IsReserved c →
      c ∈ ([ampersand] ++ ([greaterThan] ++ ([lessThan] ++ []))).map Prod.snd := by
    rintro c (rfl | rfl | rfl) <;> decide
  simp only [restore, escape, String.toList_ofList, escapeChars_eq_flatMap]
  rw [restoreChars_flatMap_escapeExcept (hsingle (by decide)) (by decide),
    restoreChars_flatMap_escapeExcept (hsingle (by decide)) (by decide),
    restoreChars_flatMap_escapeExcept (hsingle (by decide)) (by decide),
    flatMap_escapeExcept hall, String.ofList_toList]

/-! ## Escaped text -/

theorem notMem_escapeChars {c : Char} (hc : c = '<' ∨ c = '>') (s : List Char) :
    c ∉ escapeChars s := by
  have hentity : ∀ e ∈ entities, c ∉ e.1.toList := by
    rcases hc with rfl | rfl <;> decide
  intro h
  obtain ⟨d, -, hd⟩ := List.mem_flatMap.1 h
  rcases escapeChar_eq_or d with ⟨e, he, -, hchar⟩ | ⟨hplain, hchar⟩
  · rw [hchar] at hd
    exact hentity e he hd
  · rw [hchar, List.mem_singleton] at hd
    exact hplain (hd ▸ .inr hc)

/-- Where the character that begins entities stands in escaped text, an entity begins. -/
theorem exists_prefix_of_escapeChars_eq {s front behind : List Char}
    (h : escapeChars s = front ++ '&' :: behind) :
    ∃ e ∈ entities, e.1.toList <+: '&' :: behind := by
  induction s generalizing front with
  | nil => simp at h
  | cons c s ih =>
    rw [escapeChars_cons, List.append_eq_append_iff] at h
    rcases h with ⟨more, rfl, hrest⟩ | ⟨more, hchar, hrest⟩
    · exact ih hrest
    · cases more with
      | nil => exact @ih [] hrest.symm
      | cons d more =>
        obtain ⟨rfl, rfl⟩ := List.cons.inj hrest
        -- The character is one of those that `c` stands as, and it can only be the first of them.
        rcases escapeChar_eq_or c with ⟨e, he, -, hentity⟩ | ⟨hplain, hself⟩
        · obtain ⟨name, hname, hclean⟩ := exists_eq_cons_of_mem_entities he
          rw [hentity, hname] at hchar
          cases front with
          | nil =>
            obtain ⟨-, rfl⟩ := List.cons.inj hchar
            rw [hrest, ← hname]
            exact ⟨e, he, List.prefix_append _ _⟩
          | cons d front =>
            obtain ⟨-, rfl⟩ := List.cons.inj hchar
            exact absurd (by simp) hclean
        · rw [hself] at hchar
          have hmem : '&' ∈ [c] := hchar ▸ by simp
          exact absurd (.inl (List.mem_singleton.1 hmem).symm) hplain

theorem length_le_length_escapeChars (s : List Char) : s.length ≤ (escapeChars s).length := by
  induction s with
  | nil => exact Nat.le_refl _
  | cons c s ih =>
    have hchar : 1 ≤ (escapeChar c).length := by
      rw [escapeChar]
      split_ifs <;> simp
    rw [escapeChars_cons, List.length_append, List.length_cons]
    omega

/-- A text stays as it is if and only if it holds no reserved character: any entity makes it
longer. -/
theorem escapeChars_eq_self_iff {s : List Char} :
    escapeChars s = s ↔ ∀ c ∈ s, ¬ IsReserved c := by
  induction s with
  | nil => simp
  | cons c s ih =>
    rw [escapeChars_cons, List.forall_mem_cons]
    rcases escapeChar_eq_or c with ⟨e, he, rfl, hchar⟩ | ⟨hplain, hchar⟩
    · have hreserved : ∀ e ∈ entities, IsReserved e.2 ∧ 2 ≤ e.1.toList.length := by
        simp [entities, ampersand, lessThan, greaterThan, IsReserved]
      refine iff_of_false (fun h => ?_) fun h => h.1 (hreserved e he).1
      have hlength := congrArg List.length h
      rw [hchar, List.length_append, List.length_cons] at hlength
      have := length_le_length_escapeChars s
      have := (hreserved e he).2
      omega
    · rw [hchar, List.singleton_append, List.cons.injEq, and_iff_right rfl, ih,
        and_iff_right hplain]

/-- Escaping a text is faithful. The escaped text holds none of the characters that open and close
tags, and each character in it that begins entities begins one. Taking the entities back gives the
text, in one pass as well as one kind after the other with the entity of that character last. Texts
are escaped piece by piece; and a text stays as it is if and only if it holds no reserved
character. -/
theorem escape_faithful (s : String) :
    ('<' ∉ (escape s).toList ∧ '>' ∉ (escape s).toList) ∧
    (∀ front behind : List Char, (escape s).toList = front ++ '&' :: behind →
      ∃ entity ∈ ["&amp;", "&lt;", "&gt;"], entity.toList <+: '&' :: behind) ∧
    restore [("&amp;", '&'), ("&lt;", '<'), ("&gt;", '>')] (escape s) = s ∧
    restore [("&amp;", '&')] (restore [("&gt;", '>')] (restore [("&lt;", '<')] (escape s))) = s ∧
    (∀ t, escape (s ++ t) = escape s ++ escape t) ∧
    (escape s = s ↔ ∀ c ∈ s.toList, c ≠ '&' ∧ c ≠ '<' ∧ c ≠ '>') := by
  have hchars : (escape s).toList = escapeChars s.toList := String.toList_ofList
  refine ⟨?_, fun front behind h => ?_, restore_escape s, restore_restore_restore_escape s,
    fun t => ?_, ?_⟩
  · rw [hchars]
    exact ⟨notMem_escapeChars (.inl rfl) _, notMem_escapeChars (.inr rfl) _⟩
  · rw [hchars] at h
    obtain ⟨e, he, hstarts⟩ := exists_prefix_of_escapeChars_eq h
    exact ⟨e.1, List.mem_map_of_mem he, hstarts⟩
  · rw [escape, String.toList_append, escapeChars_append, String.ofList_append, escape, escape]
  · rw [← String.toList_inj, hchars, escapeChars_eq_self_iff]
    simp only [IsReserved, not_or]

end DeckScript.Markup
