import DeckScript.Proofs.ChartArguments
import DeckScript.Proofs.FileNames
import DeckScript.Proofs.LongestLexemes
import DeckScript.Proofs.LoopValues
import DeckScript.Proofs.SingleLines
import Mathlib.Algebra.Order.BigOperators.Group.List
import Mathlib.Algebra.Order.Group.Nat

/-!
# Values put into a chart

A value gets into the command of a chart in two ways. A loop puts it into the text of the line,
where it is cut into words like all the rest, and each word then loses the double quotes around it.
A variable stands in the text by its name, and its value first loses the double quotes around it and
is then cut into words. This makes no difference for numbers and for items without white space. The
words of an item with white space keep the quotes at its ends if a loop puts it in.

## Main definitions

* `chartArgs` — the arguments that a word of a chart's line becomes
* `IsLoopValue` — a number or an item as it stands in the body of a loop

## Main results

* `chartCommand_eq`, `chartCommand_bind` — a command word by word, and with a value put in
* `chartCommand_bind_eq_insert` — when putting a value in and assigning it make the same command
-/

namespace DeckScript

open Text

/-! ## Commands word by word -/

/-- The arguments that a word of a chart's line becomes. -/
def chartArgs (resolve : String → String) (word : String) : List String :=
  fields (Literal.bare (resolve word))

section Commands

variable {resolve : String → String} {text first : String} {words : List String}

theorem fields_of_fields_eq_cons (h : fields text = first :: words) :
    fields first = [first] ∧ ∀ word ∈ words, fields word = [word] := by
  have hword : ∀ word ∈ first :: words, fields word = [word] := fun word hword =>
    fields_of_mem_fields (s := text) (by rwa [h])
  exact List.forall_mem_cons.1 hword

/-- The first word of the line is the program, and the others become its arguments one by one. -/
theorem chartCommand_eq (h : fields text = first :: words) :
    chartCommand resolve text = first :: words.flatMap (chartArgs resolve) := by
  rw [chartCommand, h]
  dsimp only
  rw [fields_intercalate, List.flatMap_cons, (fields_of_fields_eq_cons h).1, List.flatMap_map]
  rfl

/-- The value takes the place of its placeholder and is cut into words there. -/
theorem chartCommand_bind {r : Record} {placeholder value : String}
    (h : fields r.text = first :: words) (hfirst : first ≠ placeholder) :
    chartCommand resolve (r.bind placeholder value).text =
      first :: words.flatMap fun word =>
        if word = placeholder then (fields value).flatMap (chartArgs resolve)
        else chartArgs resolve word := by
  obtain ⟨hprogram, hwords⟩ := fields_of_fields_eq_cons h
  have hfields : fields (r.bind placeholder value).text =
      first :: words.flatMap fun word => if word = placeholder then fields value else [word] := by
    rw [Record.bind]
    dsimp only
    rw [fields_intercalate, h, List.map_cons, List.flatMap_cons, if_neg hfirst, hprogram,
      List.flatMap_map]
    refine congrArg (first :: ·) (List.flatMap_congr fun word hword => ?_)
    rw [apply_ite fields, hwords word hword]
  rw [chartCommand_eq hfields, List.flatMap_assoc]
  refine congrArg (first :: ·) (List.flatMap_congr fun word _ => ?_)
  split
  · rfl
  · exact List.flatMap_singleton ..

end Commands

theorem chartArgs_insert (store : Store) (placeholder value word : String) :
    chartArgs (Store.resolve (store.insert placeholder value)) word =
      if word = placeholder then fields (Literal.bare value) else chartArgs store.resolve word := by
  rw [chartArgs, Store.resolve, Table.get?_insert]
  split
  · rw [Option.getD_some]
  · rfl

/-- Lists that are put together from pieces, which differ for one word only, are equal if and only
if the pieces for that word are, should it occur at all. -/
theorem flatMap_eq_flatMap_iff {α β : Type} {f g : α → List β} {l : List α} {a : α}
    (h : ∀ b, b ≠ a → f b = g b) : l.flatMap f = l.flatMap g ↔ (a ∈ l → f a = g a) := by
  constructor
  · intro heq ha
    -- The pieces for the word are equally long, or the whole lists would not be.
    have hlength : (f a).length = (g a).length := by
      have hsum : (l.map fun b => (f b).length).sum = (l.map fun b => (g b).length).sum := by
        rw [← List.length_flatMap, ← List.length_flatMap, heq]
      have hle {p q : α → List β} (hpq : ∀ b, b ≠ a → p b = q b)
          (hlt : (p a).length < (q a).length) :
          (l.map fun b => (p b).length).sum < (l.map fun b => (q b).length).sum := by
        refine List.sum_lt_sum _ _ (fun b _ => ?_) ⟨a, ha, hlt⟩
        by_cases hb : b = a
        · rw [hb]
          exact hlt.le
        · rw [hpq b hb]
      rcases Nat.lt_trichotomy (f a).length (g a).length with hlt | heq | hgt
      · exact absurd hsum (hle h hlt).ne
      · exact heq
      · exact absurd hsum (hle (fun b hb => (h b hb).symm) hgt).ne'
    induction l with
    | nil => cases ha
    | cons b rest ih =>
      rw [List.flatMap_cons, List.flatMap_cons] at heq
      by_cases hb : b = a
      · rw [hb] at heq
        exact List.append_inj_left heq hlength
      · rw [h b hb] at heq
        exact ih (List.append_cancel_left heq) ((List.mem_cons.1 ha).resolve_left (Ne.symm hb))
  · intro heq
    refine List.flatMap_congr fun b hb => ?_
    by_cases hba : b = a
    · rw [hba] at hb ⊢
      exact heq hb
    · exact h b hba

/-- A loop that puts the value in and an assignment of it make the same command if and only if the
words of the value, each on its own, become the same arguments as the value as a whole. -/
theorem chartCommand_bind_eq_insert_iff {r : Record} {store : Store}
    {placeholder value first : String} {words : List String}
    (h : fields r.text = first :: words) (hfirst : first ≠ placeholder) :
    chartCommand store.resolve (r.bind placeholder value).text =
        chartCommand (Store.resolve (store.insert placeholder value)) r.text ↔
      (placeholder ∈ words →
        (fields value).flatMap (chartArgs store.resolve) = fields (Literal.bare value)) := by
  have hsame (word : String) (hword : word ≠ placeholder) :
      (if word = placeholder then (fields value).flatMap (chartArgs store.resolve)
        else chartArgs store.resolve word) =
      chartArgs (Store.resolve (store.insert placeholder value)) word := by
    rw [chartArgs_insert, if_neg hword, if_neg hword]
  rw [chartCommand_bind h hfirst, chartCommand_eq h, List.cons.injEq, and_iff_right rfl,
    flatMap_eq_flatMap_iff hsame, if_pos rfl, chartArgs_insert, if_pos rfl]

/-! ## The values of loops -/

/-- A value as it stands in the body of a loop. -/
inductive IsLoopValue : String → Prop
  | number (v : Float) : IsLoopValue (Number.text v)
  | item (item : String) : IsLoopValue (Literal.requote item)

/-- The text holds no white space. -/
def IsUnbroken (s : String) : Prop := ∀ c ∈ s.toList, isWhiteSpace c = false

instance : DecidablePred IsUnbroken := fun s => List.decidableBAll _ s.toList

/-- A text without white space is its only word. -/
theorem IsUnbroken.fields_eq {s : String} (h : IsUnbroken s) (hne : s ≠ "") : fields s = [s] := by
  have hlist : s.toList ≠ [] := fun hnil => hne (String.toList_eq_nil_iff.1 hnil)
  rw [fields, fieldChars_of_forall hlist h]
  simp

theorem isWhiteSpace_of_isNumeric {c : Char} (h : Number.isNumeric c) : isWhiteSpace c = false := by
  rw [Number.isNumeric, Bool.or_eq_true, decide_eq_true_eq] at h
  rcases h with hdigit | hother
  · exact Lexeme.isWhiteSpace_eq_false_of_isDigit hdigit
  · have hall : IsUnbroken ".e+-NaInf" := by decide
    exact hall c hother

theorem isUnbroken_text (v : Float) : IsUnbroken (Number.text v) := by
  intro c hc
  rw [Number.text, String.toList_ofList] at hc
  exact isWhiteSpace_of_isNumeric (Number.isNumeric_of_mem_chars v c hc)

theorem requote_eq_quotedName (item : String) :
    ∃ name, Literal.requote item = quotedName name := ⟨_, rfl⟩

theorem IsLoopValue.ne_empty {value : String} (h : IsLoopValue value) : value ≠ "" := by
  rw [← String.toList_eq_nil_iff.ne]
  cases h with
  | number v =>
    obtain ⟨c, rest, hchars, -⟩ := Number.beginsUpright_chars v
    simp [Number.text, hchars]
  | item item =>
    obtain ⟨name, hname⟩ := requote_eq_quotedName item
    simp [hname, toList_quotedName]

/-! ## Items with white space -/

theorem length_fieldChars_le_append (s t : List Char) :
    (fieldChars s).length ≤ (fieldChars (s ++ t)).length := by
  fun_induction fieldChars s with
  | case1 => exact Nat.zero_le _
  | case2 c rest hc ih =>
    rw [List.cons_append, fieldChars_cons_of_isWhiteSpace hc]
    exact ih
  | case3 c rest hc ih =>
    rw [List.cons_append, fieldChars, if_neg hc, List.length_cons, List.length_cons,
      List.dropWhile_append]
    -- A field that reaches to the end of `s` may go on behind it, and no field is lost.
    split
    · rename_i hend
      rw [List.isEmpty_iff] at hend
      simp [hend]
    · exact Nat.succ_le_succ ih

theorem bare_eq_or (word : String) :
    Literal.bare word = word ∨
      ∃ name, name ≠ "" ∧ word = quotedName name ∧ Literal.bare word = name := by
  rw [Literal.bare]
  split
  · rename_i h
    obtain ⟨hsize, hends⟩ := h
    rw [Literal.isEnclosed, Bool.and_eq_true] at hends
    obtain ⟨name, rfl⟩ := exists_quotedName (Nat.le_of_lt hsize) hends.1 hends.2
    refine .inr ⟨name, ?_, rfl, inner_quotedName name⟩
    rintro rfl
    exact absurd hsize (by decide)
  · exact .inl rfl

theorem bare_quotedName {name : String} (h : name ≠ "") :
    Literal.bare (quotedName name) = name := by
  have hsize := utf8ByteSize_pos h
  rw [Literal.bare, if_pos, inner_quotedName]
  rw [utf8ByteSize_quotedName, Literal.isEnclosed, opens_quotedName, closes_quotedName]
  exact ⟨by omega, rfl⟩

/-- A word that is no variable becomes a single argument. -/
theorem chartArgs_of_fields_eq {store : Store} {word : String} (hword : fields word = [word])
    (hstore : store.get? word = none) : chartArgs store.resolve word = [Literal.bare word] := by
  rw [chartArgs, Store.resolve_of_get?_eq_none hstore]
  rcases bare_eq_or word with heq | ⟨name, hname, hquoted, hbare⟩
  · rw [heq, hword]
  · have hmem : word ∈ fields word := by
      rw [hword]
      exact List.mem_singleton_self word
    obtain ⟨chars, hchars, hlist⟩ := List.mem_map.1 hmem
    obtain ⟨-, hnone⟩ := isWhiteSpace_eq_false_of_mem_fieldChars hchars
    have hinside : IsUnbroken name := by
      intro c hc
      apply hnone
      rw [← String.toList_ofList (l := chars), hlist, hquoted, toList_quotedName]
      exact List.mem_cons_of_mem _ (List.mem_append_left _ hc)
    rw [hbare, hinside.fields_eq hname]

theorem exists_first_isWhiteSpace {s : List Char} (h : ¬ ∀ c ∈ s, isWhiteSpace c = false) :
    ∃ x c y, s = x ++ c :: y ∧ isWhiteSpace c ∧ ∀ d ∈ x, isWhiteSpace d = false := by
  have hsome : (s.find? isWhiteSpace).isSome := by simpa [List.find?_isSome] using h
  obtain ⟨c, hc⟩ := Option.isSome_iff_exists.1 hsome
  obtain ⟨hblank, x, y, hs, hx⟩ := List.find?_eq_some_iff_append.1 hc
  exact ⟨x, c, y, hs, hblank, by simpa using hx⟩

/-- The words of an item with white space are other arguments than the item as a whole: the quote at
its beginning stays with the first word, or stands alone. -/
theorem flatMap_chartArgs_ne {store : Store} {value : String} (h : IsLoopValue value)
    (hbroken : ¬ IsUnbroken value) (hstore : ∀ word ∈ fields value, store.get? word = none) :
    (fields value).flatMap (chartArgs store.resolve) ≠ fields (Literal.bare value) := by
  cases h with
  | number v => exact absurd (isUnbroken_text v) hbroken
  | item item =>
    obtain ⟨name, hvalue⟩ := requote_eq_quotedName item
    rw [hvalue] at hbroken hstore ⊢
    have hinside : ¬ ∀ c ∈ name.toList, isWhiteSpace c = false := by
      intro h
      apply hbroken
      rw [IsUnbroken, toList_quotedName, List.forall_mem_cons, List.forall_mem_append]
      exact ⟨by decide, h, List.forall_mem_singleton.2 (by decide)⟩
    have hname : name ≠ "" := by
      rintro rfl
      exact hinside (by simp)
    obtain ⟨x, c, y, hlist, hc, hx⟩ := exists_first_isWhiteSpace hinside
    -- The first word is the quote with what stands in front of the white space.
    have hfirst : fieldChars ('"' :: x) = ['"' :: x] :=
      fieldChars_of_forall (List.cons_ne_nil _ _) (List.forall_mem_cons.2 ⟨by decide, hx⟩)
    have hwords : fields (quotedName name) =
        String.ofList ('"' :: x) :: (fieldChars (y ++ ['"'])).map String.ofList := by
      rw [fields, toList_quotedName, hlist, List.append_assoc, List.cons_append, ← List.cons_append,
        fieldChars_append_cons hc, hfirst]
      rfl
    have hargs : (fields (quotedName name)).flatMap (chartArgs store.resolve) =
        (fields (quotedName name)).map Literal.bare := by
      rw [List.map_eq_flatMap]
      exact List.flatMap_congr fun word hword =>
        chartArgs_of_fields_eq (fields_of_mem_fields hword) (hstore word hword)
    have hwhole : fields name = (fieldChars x ++ fieldChars y).map String.ofList := by
      rw [fields, hlist, fieldChars_append_cons hc]
    rw [hargs, bare_quotedName hname, hwords, hwhole]
    intro heq
    cases x with
    | nil =>
      have hlength := congrArg List.length heq
      have hle := length_fieldChars_le_append y ['"']
      simp only [List.map_cons, List.length_cons, List.length_map, fieldChars_nil,
        List.nil_append] at hlength
      omega
    | cons d x =>
      rw [fieldChars_of_forall (List.cons_ne_nil _ _) hx] at heq
      have hhead := (List.cons.inj heq).1
      rcases bare_eq_or (String.ofList ('"' :: d :: x)) with hbare | ⟨between, -, hquoted, hbare⟩
      · rw [hbare, String.ofList_inj] at hhead
        exact absurd (congrArg List.length hhead) (by simp)
      · rw [hbare] at hhead
        have hchars := congrArg String.toList hquoted
        rw [String.toList_ofList, toList_quotedName, hhead, String.toList_ofList] at hchars
        exact absurd (congrArg List.length hchars) (by simp)

/-! ## Putting in and assigning -/

/-- Let the first word of a line not be the placeholder, and let the value of a loop be no variable.
The command is the same whether the loop puts the value in or a variable holds it, if the value has
no white space or the placeholder is no word of the line; a number never has white space. If no word
of the value is a variable, these are the only cases. -/
theorem chartCommand_bind_eq_insert {r : Record} {store : Store} {placeholder value : String}
    (hfirst : (fields r.text).head? ≠ some placeholder) (hvalue : IsLoopValue value)
    (hstore : store.get? value = none) :
    let bound := chartCommand store.resolve (r.bind placeholder value).text
    let assigned := chartCommand (Store.resolve (store.insert placeholder value)) r.text
    (placeholder ∉ fields r.text ∨ IsUnbroken value → bound = assigned) ∧
      ((∃ v, value = Number.text v) → bound = assigned) ∧
      ((∀ word ∈ fields value, store.get? word = none) → bound = assigned →
        placeholder ∉ fields r.text ∨ IsUnbroken value) := by
  intro bound assigned
  -- The first word is the program on both sides, so the words of the value decide.
  have hlaw : bound = assigned ↔ (placeholder ∈ fields r.text →
      (fields value).flatMap (chartArgs store.resolve) = fields (Literal.bare value)) := by
    cases hfields : fields r.text with
    | nil =>
      have hbound : fields (r.bind placeholder value).text = [] := by
        rw [Record.bind]
        dsimp only
        rw [hfields]
        simp [fields]
      refine iff_of_true ?_ (by simp)
      rw [show bound = [] by simp only [bound, chartCommand, hbound],
        show assigned = [] by simp only [assigned, chartCommand, hfields]]
    | cons first words =>
      rw [hfields, List.head?_cons, Ne, Option.some_inj] at hfirst
      rw [chartCommand_bind_eq_insert_iff hfields hfirst, List.mem_cons,
        or_iff_right (Ne.symm hfirst)]
  -- As its only word the value loses its quotes in both ways.
  have hunbroken (h : IsUnbroken value) :
      (fields value).flatMap (chartArgs store.resolve) = fields (Literal.bare value) := by
    rw [h.fields_eq hvalue.ne_empty, List.flatMap_singleton, chartArgs,
      Store.resolve_of_get?_eq_none hstore]
  refine ⟨?_, ?_, ?_⟩
  · rintro (hnone | h)
    · exact hlaw.2 fun hmem => absurd hmem hnone
    · exact hlaw.2 fun _ => hunbroken h
  · rintro ⟨v, rfl⟩
    exact hlaw.2 fun _ => hunbroken (isUnbroken_text v)
  · intro hwords heq
    rw [or_iff_not_imp_left, not_not]
    intro hmem
    by_contra hbroken
    exact flatMap_chartArgs_ne hvalue hbroken hwords (hlaw.1 heq hmem)

theorem fields_intercalate_of_isUnbroken {words : List String}
    (h : ∀ word ∈ words, IsUnbroken word ∧ word ≠ "") : fields (" ".intercalate words) = words :=
  fields_intercalate_of_forall fun word hword => (h word hword).1.fields_eq (h word hword).2

theorem chartCommand_bind_eq_insert_data :
    let r := Record.ofLine .empty 1 "chart v data"
    let value := Literal.requote "abc"
    (fields r.text).head? ≠ some "v" ∧ IsLoopValue value ∧ IsUnbroken value ∧
      Table.empty.get? value = (none : Option String) ∧
      chartCommand (Store.resolve .empty) (r.bind "v" value).text =
        chartCommand (Store.resolve (Table.empty.insert "v" value)) r.text := by
  intro r value
  have hwords : fields r.text = ["chart", "v", "data"] := by
    rw [show r.text = " ".intercalate ["chart", "v", "data"] from rfl]
    exact fields_intercalate_of_isUnbroken (by decide)
  have hfirst : (fields r.text).head? ≠ some "v" := by simp [hwords]
  have hunbroken : IsUnbroken value := by decide
  exact ⟨hfirst, .item "abc", hunbroken, rfl,
    (chartCommand_bind_eq_insert hfirst (.item "abc") rfl).1 (.inr hunbroken)⟩

/-- An item of two words keeps its quotes if a loop puts it in. -/
theorem chart_keeps_quotes_of_bound_item :
    let r := Record.ofLine .empty 1 "chart v"
    let value := Literal.requote "a b"
    (fields r.text).head? ≠ some "v" ∧ Table.empty.get? value = (none : Option String) ∧
      chartCommand (Store.resolve .empty) (r.bind "v" value).text = ["chart", "\"a", "b\""] ∧
      chartCommand (Store.resolve (Table.empty.insert "v" value)) r.text = ["chart", "a", "b"] := by
  intro r value
  have hwords : fields r.text = ["chart", "v"] := by
    rw [show r.text = " ".intercalate ["chart", "v"] from rfl]
    exact fields_intercalate_of_isUnbroken (by decide)
  have hvalue : fields value = ["\"a", "b\""] := by
    rw [show value = " ".intercalate ["\"a", "b\""] from rfl]
    exact fields_intercalate_of_isUnbroken (by decide)
  have hbare : fields (Literal.bare value) = ["a", "b"] := by
    have hinside : Literal.bare (quotedName "a b") = " ".intercalate ["a", "b"] :=
      bare_quotedName (by decide)
    rw [show value = quotedName "a b" from rfl, hinside]
    exact fields_intercalate_of_isUnbroken (by decide)
  have hargs : ∀ word ∈ ["\"a", "b\""],
      chartArgs (Store.resolve .empty) word = [Literal.bare word] := fun word hword =>
    chartArgs_of_fields_eq (fields_of_mem_fields (s := value) (by rwa [hvalue])) rfl
  refine ⟨by simp [hwords], rfl, ?_, ?_⟩
  · rw [chartCommand_bind hwords (by decide), List.flatMap_singleton, if_pos rfl, hvalue,
      List.flatMap_congr hargs]
    decide
  · rw [chartCommand_eq hwords, List.flatMap_singleton, chartArgs_insert, if_pos rfl, hbare]

end DeckScript
