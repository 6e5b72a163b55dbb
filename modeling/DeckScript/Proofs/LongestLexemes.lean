import DeckScript.Proofs.CommentText
import DeckScript.Proofs.VariableNames

/-!
# The longest lexemes

Numbers, identifiers and runs of white space are measured by counting how many characters belong to
them. Here it is said what they look like, and what is measured is the longest prefix of the text
that looks so. For a decimal number this takes an argument: its digits, its point and its exponent
are measured one behind the other, and no other way of cutting the text gives a longer one.

## Main definitions

* `IsLongest` — the longest prefix of a text that has a property
* `IsRun` — a first character, and then characters of a sort
* `IsMantissa`, `IsExponent`, `IsNumber` — the parts of a number, and numbers

## Main results

* `isLongest_isRun_iff` — what is measured as a run is the longest one
* `isLongest_isNumber_iff` — what is measured as a number is the longest one
-/

namespace DeckScript.Lexeme

open Text

/-! ## Longest prefixes -/

/-- Of all prefixes of a text that have the property, `t` is the longest one, and `rest` follows
it. -/
def IsLongest (P : List Char → Prop) (t rest : List Char) : Prop :=
  P t ∧ ∀ p, P p → p <+: t ++ rest → p.length ≤ t.length

theorem length_le_runLength {p : Char → Bool} {word s : List Char} (hword : ∀ c ∈ word, p c)
    (hpre : word <+: s) : word.length ≤ runLength p s := by
  obtain ⟨rest, rfl⟩ := hpre
  rw [runLength_append_eq, if_pos (runLength_eq_length hword)]
  exact Nat.le_add_right _ _

/-- A run ends in front of a character of another sort. -/
theorem runLength_append_cons {p : Char → Bool} {word : List Char} (hword : ∀ c ∈ word, p c)
    {c : Char} (hc : p c = false) (rest : List Char) :
    runLength p (word ++ c :: rest) = word.length := by
  have hstop : runLength p (c :: rest) = 0 := by
    rw [runLength, List.takeWhile_cons_of_neg (by simp [hc]), List.length_nil]
  rw [runLength_append_eq, if_pos (runLength_eq_length hword), hstop, Nat.add_zero]

theorem forall_mem_take_runLength (p : Char → Bool) (s : List Char) :
    ∀ c ∈ s.take (runLength p s), p c := by
  rw [take_runLength]
  exact fun c hc => List.mem_takeWhile_imp hc

/-! ## Runs of characters -/

/-- A first character, and then characters of a sort. -/
def IsRun (start part : Char → Bool) (t : List Char) : Prop :=
  ∃ c word, t = c :: word ∧ start c ∧ ∀ d ∈ word, part d

theorem isLongest_isRun_iff {start part : Char → Bool} {c : Char} {word rest : List Char} :
    IsLongest (IsRun start part) (c :: word) rest ↔
      start c ∧ runLength part (word ++ rest) = word.length := by
  constructor
  · rintro ⟨⟨_, _, heq, hc, hword⟩, hlongest⟩
    obtain ⟨rfl, rfl⟩ := List.cons.inj heq
    refine ⟨hc, Nat.le_antisymm ?_ (length_le_runLength hword (List.prefix_append _ _))⟩
    -- The whole run is a prefix as well.
    have hrun := hlongest (c :: (word ++ rest).take (runLength part (word ++ rest)))
      ⟨c, _, rfl, hc, forall_mem_take_runLength part _⟩
      (List.cons_prefix_cons.2 ⟨rfl, List.take_prefix _ _⟩)
    rw [List.length_cons, List.length_cons,
      List.length_take_of_le (runLength_le_length part _)] at hrun
    exact Nat.le_of_succ_le_succ hrun
  · rintro ⟨hc, hlength⟩
    have hword := forall_mem_take_runLength part (word ++ rest)
    rw [hlength, List.take_left] at hword
    refine ⟨⟨c, word, rfl, hc, hword⟩, ?_⟩
    rintro _ ⟨d, more, rfl, -, hmore⟩ hpre
    obtain ⟨-, hpre⟩ := List.cons_prefix_cons.1 hpre
    rw [List.length_cons, List.length_cons, ← hlength]
    exact Nat.succ_le_succ (length_le_runLength hmore hpre)

/-! ## Numbers -/

/-- One decimal digit or more. -/
def IsDigits (t : List Char) : Prop := t ≠ [] ∧ ∀ c ∈ t, c.isDigit

/-- Digits with an optional point behind or between them, or a point in front of digits. -/
inductive IsMantissa : List Char → Prop
  | whole {ds : List Char} : IsDigits ds → IsMantissa ds
  | fraction {ds fs : List Char} : IsDigits ds → (∀ c ∈ fs, c.isDigit) →
    IsMantissa (ds ++ '.' :: fs)
  | point {fs : List Char} : IsDigits fs → IsMantissa ('.' :: fs)

/-- Nothing, or a mark with an optional sign and digits behind it. -/
inductive IsExponent : List Char → Prop
  | none : IsExponent []
  | unsigned {mark : Char} {ds : List Char} : isExponentMark mark → IsDigits ds →
    IsExponent (mark :: ds)
  | signed {mark sign : Char} {ds : List Char} : isExponentMark mark → isSign sign →
    IsDigits ds → IsExponent (mark :: sign :: ds)

/-- A decimal number, or a zero with the mark of the hexadecimal ones and their digits. -/
inductive IsNumber : List Char → Prop
  | decimal {m e : List Char} : IsMantissa m → IsExponent e → IsNumber (m ++ e)
  | hexadecimal {mark : Char} {ds : List Char} : mark = 'x' ∨ mark = 'X' → ds ≠ [] →
    (∀ c ∈ ds, isHexDigit c) → IsNumber ('0' :: mark :: ds)

theorem IsMantissa.ne_nil {m : List Char} (h : IsMantissa m) : m ≠ [] := by
  cases h with
  | whole hds => exact hds.1
  | fraction _ _ => simp
  | point _ => exact List.cons_ne_nil _ _

theorem IsNumber.ne_nil {t : List Char} (h : IsNumber t) : t ≠ [] := by
  cases h with
  | decimal hm _ => exact List.append_ne_nil_of_left_ne_nil hm.ne_nil _
  | hexadecimal _ _ _ => exact List.cons_ne_nil _ _

theorem isDigits_take_runLength {s : List Char} (h : runLength Char.isDigit s ≠ 0) :
    IsDigits (s.take (runLength Char.isDigit s)) := by
  refine ⟨?_, forall_mem_take_runLength Char.isDigit s⟩
  rw [take_runLength]
  intro hnil
  rw [runLength, hnil] at h
  exact h rfl

/-- What an exponent measures is one. -/
theorem isExponent_take (s : List Char) : IsExponent (s.take (exponentLength s)) := by
  match s with
  | [] | [_] => exact .none
  | mark :: c :: rest =>
    rw [exponentLength]
    split_ifs with hmark hsign hnone hnone
    · exact .none
    · exact .signed hmark hsign (isDigits_take_runLength hnone)
    · exact .none
    · exact .unsigned hmark (isDigits_take_runLength hnone)
    · exact .none

/-- No exponent at a place is longer than what is measured there. -/
theorem IsExponent.length_le {e s : List Char} (he : IsExponent e) (hpre : e <+: s) :
    e.length ≤ exponentLength s := by
  obtain ⟨rest, rfl⟩ := hpre
  cases he with
  | none => exact Nat.zero_le _
  | @unsigned mark ds hmark hds =>
    obtain ⟨d, more, rfl⟩ := List.exists_cons_of_ne_nil hds.1
    -- The digit behind the mark is not taken for a sign.
    have hd : isSign d = false := by
      have hdigit := hds.2 d List.mem_cons_self
      rw [isSign, Bool.or_eq_false_iff]
      constructor <;> (rw [decide_eq_false_iff_not]; rintro rfl; cases hdigit)
    have hrun := length_le_runLength hds.2 (List.prefix_append _ rest)
    rw [List.length_cons] at hrun
    simp only [List.cons_append, exponentLength, hmark, hd, if_true, Bool.false_eq_true, if_false]
      at hrun ⊢
    rw [if_neg (by omega), List.length_cons, List.length_cons]
    omega
  | @signed mark sign ds hmark hsign hds =>
    have hlength := List.length_pos_iff.2 hds.1
    have hrun := length_le_runLength hds.2 (List.prefix_append _ rest)
    simp only [List.cons_append, exponentLength, hmark, hsign, if_true, List.length_cons]
    rw [if_neg (by omega)]
    omega

theorem fraction_take (s : List Char) :
    s.take (fractionLength s) = [] ∨
      ∃ fs, s.take (fractionLength s) = '.' :: fs ∧ ∀ c ∈ fs, c.isDigit := by
  cases s with
  | nil => exact .inl rfl
  | cons c rest =>
    rw [fractionLength_cons]
    split
    · rename_i hpoint
      subst hpoint
      exact .inr ⟨_, List.take_succ_cons, forall_mem_take_runLength Char.isDigit rest⟩
    · exact .inl rfl

/-- What a decimal number measures behind its first digit makes up one with it. -/
theorem isNumber_decimalExtent {c : Char} (hc : c.isDigit) (s : List Char) :
    IsNumber (c :: s.take (decimalExtent s)) := by
  have hdigits : IsDigits (c :: s.take (runLength Char.isDigit s)) :=
    ⟨List.cons_ne_nil _ _, List.forall_mem_cons.2 ⟨hc, forall_mem_take_runLength _ s⟩⟩
  rw [decimalExtent, List.take_add, List.take_add, ← List.cons_append, ← List.cons_append]
  refine .decimal ?_ (isExponent_take _)
  rcases fraction_take (s.drop (runLength Char.isDigit s)) with hnone | ⟨fs, hsome, hfs⟩
  · rw [hnone, List.append_nil]
    exact .whole hdigits
  · rw [hsome]
    exact .fraction hdigits hfs

theorem isNumber_pointExtent {s : List Char} (h : s.head?.any Char.isDigit) :
    IsNumber ('.' :: s.take (pointExtent s)) := by
  have hdigits : runLength Char.isDigit s ≠ 0 := by
    cases s with
    | nil => cases h
    | cons c rest =>
      have hc : c.isDigit := by simpa using h
      rw [runLength, List.takeWhile_cons_of_pos hc]
      exact Nat.succ_ne_zero _
  rw [pointExtent, List.take_add, ← List.cons_append]
  exact .decimal (.point (isDigits_take_runLength hdigits)) (isExponent_take _)

theorem isNumber_hexExtent? {s : List Char} {n : Nat} (h : hexExtent? s = some n) :
    IsNumber ('0' :: s.take n) := by
  match s with
  | [] | [_] => cases h
  | mark :: c :: rest =>
    rw [hexExtent?] at h
    split at h
    · rename_i hhex
      obtain rfl := Option.some.inj h
      rw [List.take_succ_cons, List.take_succ_cons]
      refine .hexadecimal hhex.1 (List.cons_ne_nil _ _) ?_
      exact List.forall_mem_cons.2 ⟨hhex.2, forall_mem_take_runLength isHexDigit rest⟩
    · cases h

theorem not_isDigit_of_isExponentMark {c : Char} (h : isExponentMark c) :
    c.isDigit = false ∧ c ≠ '.' := by
  rw [isExponentMark, Bool.or_eq_true, decide_eq_true_eq, decide_eq_true_eq] at h
  rcases h with rfl | rfl <;> decide

/-- An exponent that is not empty begins with its mark. -/
theorem IsExponent.eq_nil_or {e : List Char} (h : IsExponent e) :
    e = [] ∨ ∃ mark more, e = mark :: more ∧ isExponentMark mark := by
  cases h with
  | none => exact .inl rfl
  | unsigned hmark _ => exact .inr ⟨_, _, rfl, hmark⟩
  | signed hmark _ _ => exact .inr ⟨_, _, rfl, hmark⟩

/-- No digits and exponent behind a point are longer than what is measured there. -/
theorem length_le_pointExtent {fs e s : List Char} (hfs : ∀ c ∈ fs, c.isDigit)
    (he : IsExponent e) (hpre : fs ++ e <+: s) : fs.length + e.length ≤ pointExtent s := by
  rw [pointExtent]
  rcases he.eq_nil_or with rfl | ⟨mark, more, rfl, hmark⟩
  · have hrun := length_le_runLength hfs ((List.prefix_append fs []).trans hpre)
    rw [List.length_nil]
    omega
  -- The mark of the exponent ends the digits, so they are what is measured in front of it.
  · obtain ⟨rest, rfl⟩ := hpre
    have hrun := runLength_append_cons hfs (not_isDigit_of_isExponentMark hmark).1 (more ++ rest)
    rw [List.append_assoc, List.cons_append, hrun, List.drop_left]
    have hexponent := he.length_le (List.prefix_append _ rest)
    rw [List.cons_append] at hexponent
    omega

theorem decimalExtent_append_cons {ds : List Char} (hds : ∀ c ∈ ds, c.isDigit) {d : Char}
    (hd : d.isDigit = false) (u : List Char) :
    decimalExtent (ds ++ d :: u) =
      ds.length + (fractionLength (d :: u) +
        exponentLength ((d :: u).drop (fractionLength (d :: u)))) := by
  rw [decimalExtent, runLength_append_cons hds hd, List.drop_left, ← List.drop_drop,
    List.drop_left, Nat.add_assoc]

/-- No decimal number is longer than what is measured behind its first digit. -/
theorem length_le_decimalExtent {m e s : List Char} {c : Char} (hm : IsMantissa m)
    (he : IsExponent e) (hc : c.isDigit) (hpre : m ++ e <+: c :: s) :
    (m ++ e).length ≤ decimalExtent s + 1 := by
  -- The first digit is the character at the place, and what is measured begins behind it.
  have hwhole {ds : List Char} (hds : IsDigits ds) {u : List Char} (hu : ds ++ u <+: c :: s) :
      ∃ more, ds = c :: more ∧ (∀ d ∈ more, d.isDigit) ∧ more ++ u <+: s := by
    obtain ⟨d, more, rfl⟩ := List.exists_cons_of_ne_nil hds.1
    rw [List.cons_append] at hu
    obtain ⟨rfl, hmore⟩ := List.cons_prefix_cons.1 hu
    exact ⟨more, rfl, (List.forall_mem_cons.1 hds.2).2, hmore⟩
  cases hm with
  | whole hds =>
    obtain ⟨more, rfl, hmore, rest, rfl⟩ := hwhole hds hpre
    rcases he.eq_nil_or with rfl | ⟨mark, u, rfl, hmark⟩
    · have hrun := length_le_runLength hmore (List.prefix_append more rest)
      rw [decimalExtent]
      simp only [List.append_nil, List.length_cons]
      omega
    · obtain ⟨hdigit, hpoint⟩ := not_isDigit_of_isExponentMark hmark
      have hexponent := he.length_le (List.prefix_append _ rest)
      rw [List.cons_append] at hexponent
      have htext : more ++ mark :: u ++ rest = more ++ mark :: (u ++ rest) := by simp
      rw [htext, decimalExtent_append_cons hmore hdigit, fractionLength_cons, if_neg hpoint,
        List.drop_zero, List.length_append, List.length_cons]
      omega
  | @fraction ds fs hds hfs =>
    rw [List.append_assoc] at hpre
    obtain ⟨more, rfl, hmore, rest, rfl⟩ := hwhole hds hpre
    have hpoint := length_le_pointExtent hfs he (List.prefix_append (fs ++ e) rest)
    rw [pointExtent] at hpoint
    have htext : more ++ ('.' :: fs ++ e) ++ rest = more ++ '.' :: (fs ++ e ++ rest) := by simp
    rw [htext, decimalExtent_append_cons hmore (by decide), fractionLength_cons, if_pos rfl,
      List.drop_succ_cons]
    simp only [List.cons_append, List.length_cons, List.length_append]
    omega
  | point _ =>
    obtain ⟨rfl, -⟩ := List.cons_prefix_cons.1 hpre
    cases hc

theorem isWhiteSpace_eq_false_of_isDigit {c : Char} (hc : c.isDigit) : isWhiteSpace c = false := by
  have hapart : ∀ s ∈ WhiteSpace.ranges, 57 < s.1 ∨ s.2 < 48 := by decide +kernel
  rw [Char.isDigit, Bool.and_eq_true, decide_eq_true_eq, decide_eq_true_eq] at hc
  have hlow : 48 ≤ c.toNat := hc.1
  have hhigh : c.toNat ≤ 57 := hc.2
  rw [← Bool.not_eq_true]
  intro hblank
  obtain ⟨s, hs, hlow', hhigh'⟩ := inRanges_iff.1 hblank
  rcases hapart s hs with h | h <;> omega

/-- A lexeme that begins with a digit is a number. -/
theorem extent_of_isDigit {c : Char} (hc : c.isDigit) (s : List Char) :
    extent c s =
      (.number, (if c = '0' then hexExtent? s else none).getD (decimalExtent s)) := by
  have hne {d : Char} (hd : d.isDigit = false) : c ≠ d := by
    rintro rfl
    rw [hc] at hd
    cases hd
  have hslash : c ≠ '/' := hne (by decide)
  have hquote : c ≠ '"' := hne (by decide)
  have hapostrophe : c ≠ '\'' := hne (by decide)
  have hbackquote : c ≠ backquote := hne (by decide)
  simp only [extent, isWhiteSpace_eq_false_of_isDigit hc, hslash, hquote, hapostrophe, hbackquote,
    hc, decide_false, Bool.false_and, Bool.false_or, Bool.false_eq_true, if_false, if_true]
  cases if c = '0' then hexExtent? s else none <;> rfl

/-- A point in front of a digit begins a number. -/
theorem extent_point {s : List Char} (h : s.head?.any Char.isDigit) :
    extent '.' s = (.number, pointExtent s) := by
  have hblank : isWhiteSpace '.' = false := by decide +kernel
  simp only [extent, hblank, h, Bool.false_eq_true, if_false]
  rfl

/-- What is measured as a number is one. -/
theorem isNumber_of_extent {c : Char} {s : List Char} {n : Nat} (h : extent c s = (.number, n)) :
    IsNumber (c :: s.take n) := by
  by_cases hc : c.isDigit
  · rw [extent_of_isDigit hc] at h
    obtain ⟨-, rfl⟩ := Prod.mk.inj h
    split
    · rename_i hzero
      subst hzero
      cases hhex : hexExtent? s with
      | some n => exact isNumber_hexExtent? hhex
      | none => exact isNumber_decimalExtent hc s
    · exact isNumber_decimalExtent hc s
  · rw [extent, if_neg hc] at h
    split_ifs at h with hblank hline hblock hquoted hraw hpoint hidentifier
    all_goals obtain ⟨hkind, rfl⟩ := Prod.mk.inj h
    all_goals cases hkind
    -- Without a digit in front, only the case of a point is left.
    rw [Bool.and_eq_true, decide_eq_true_eq] at hpoint
    obtain ⟨rfl, hhead⟩ := hpoint
    exact isNumber_pointExtent hhead

theorem decimalExtent_of_hexExtent? {s : List Char} {n : Nat} (h : hexExtent? s = some n) :
    decimalExtent s = 0 := by
  match s with
  | [] | [_] => cases h
  | mark :: c :: rest =>
    rw [hexExtent?] at h
    split at h
    · rename_i hhex
      rw [← List.nil_append (mark :: _)]
      -- The mark is no digit, no point and no mark of an exponent.
      rcases hhex.1 with rfl | rfl
      · rw [decimalExtent_append_cons (by simp) (by decide), fractionLength_cons,
          if_neg (by decide)]
        rfl
      · rw [decimalExtent_append_cons (by simp) (by decide), fractionLength_cons,
          if_neg (by decide)]
        rfl
    · cases h

/-- Where a number begins, one is measured that is as long. -/
theorem IsNumber.exists_extent {p s : List Char} {c : Char} (hp : IsNumber p)
    (hpre : p <+: c :: s) : ∃ n, extent c s = (.number, n) ∧ p.length ≤ n + 1 := by
  cases hp with
  | @hexadecimal mark ds hmark hne hds =>
    obtain ⟨rfl, rest, rfl⟩ := List.cons_prefix_cons.1 hpre
    obtain ⟨d, more, rfl⟩ := List.exists_cons_of_ne_nil hne
    obtain ⟨hd, hmore⟩ := List.forall_mem_cons.1 hds
    have hrun := length_le_runLength hmore (List.prefix_append more rest)
    refine ⟨_, extent_of_isDigit (by decide) _, ?_⟩
    rw [if_pos rfl, List.cons_append, List.cons_append, hexExtent?, if_pos ⟨hmark, hd⟩,
      Option.getD_some]
    simp only [List.length_cons]
    omega
  | @decimal m e hm he =>
    by_cases hc : c.isDigit
    · refine ⟨_, extent_of_isDigit hc s, ?_⟩
      have hlength := length_le_decimalExtent hm he hc hpre
      cases hhex : if c = '0' then hexExtent? s else none with
      | none => exact hlength
      | some n =>
        -- Behind the zero of a hexadecimal number no decimal one goes on.
        split at hhex
        · rw [decimalExtent_of_hexExtent? hhex] at hlength
          exact hlength.trans (Nat.succ_le_succ (Nat.zero_le n))
        · cases hhex
    · have hfirst {ds u : List Char} (hds : IsDigits ds) : ¬ ds ++ u <+: c :: s := by
        intro hu
        obtain ⟨d, more, rfl⟩ := List.exists_cons_of_ne_nil hds.1
        obtain ⟨rfl, -⟩ := List.cons_prefix_cons.1 hu
        exact hc (hds.2 d List.mem_cons_self)
      cases hm with
      | whole hds => exact absurd hpre (hfirst hds)
      | fraction hds _ => exact absurd (List.append_assoc _ _ e ▸ hpre) (hfirst hds)
      | @point fs hfs =>
        obtain ⟨rfl, htail⟩ := List.cons_prefix_cons.1 hpre
        have hhead : s.head?.any Char.isDigit := by
          obtain ⟨d, more, rfl⟩ := List.exists_cons_of_ne_nil hfs.1
          obtain ⟨rest, rfl⟩ := htail
          exact hfs.2 d List.mem_cons_self
        refine ⟨_, extent_point hhead, ?_⟩
        have hlength := length_le_pointExtent hfs.2 he htail
        simp only [List.cons_append, List.length_cons, List.length_append]
        omega

theorem isLongest_isNumber_iff {c : Char} {word rest : List Char} :
    IsLongest IsNumber (c :: word) rest ↔ extent c (word ++ rest) = (.number, word.length) := by
  constructor
  · rintro ⟨hnumber, hlongest⟩
    obtain ⟨n, hextent, hle⟩ :=
      hnumber.exists_extent (s := word ++ rest) (List.prefix_append (c :: word) rest)
    have hmeasured := hlongest _ (isNumber_of_extent hextent)
      (List.cons_prefix_cons.2 ⟨rfl, List.take_prefix _ _⟩)
    have hn : n ≤ (word ++ rest).length := by
      have := extent_le_length c (word ++ rest)
      rwa [hextent] at this
    rw [List.length_cons, List.length_cons, List.length_take_of_le hn] at hmeasured
    rw [List.length_cons] at hle
    rw [hextent, Nat.le_antisymm (Nat.le_of_succ_le_succ hmeasured) (Nat.le_of_succ_le_succ hle)]
  · intro hextent
    have hnumber := isNumber_of_extent hextent
    rw [List.take_left] at hnumber
    refine ⟨hnumber, fun p hp hpre => ?_⟩
    obtain ⟨n, hextent', hle⟩ := hp.exists_extent (s := word ++ rest) hpre
    rw [hextent] at hextent'
    obtain ⟨-, rfl⟩ := Prod.mk.inj hextent'
    exact hle

end DeckScript.Lexeme
