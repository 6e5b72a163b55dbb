import DeckScript.Proofs.DiskTrail
import DeckScript.Proofs.ReadingRuns
import DeckScript.Tool.Input
import Mathlib.Data.List.TakeWhile

/-!
# What a reader reads

However the bytes of a script are cut into chunks, a reader reads the lines that they make up. What
is left to be read is what the reader has kept and what it has not fetched, and fetching a chunk
moves bytes from the second to the first. As long as the origin holds the same bytes the reader
reads the same; so a reader of a stream, or of a place that nothing touches, reads the lines of a
fixed script.

## Main definitions

* `Origin.KeepsOff` — bytes that come from somewhere else than a place on the disk
* `Reader.source` — the script that is left to be read
* `Reader.Next` — what reading a line comes to, told by what is left to be read

## Main results

* `Reader.next_congr` — a reader reads the same where its origin has the same bytes
* `Reader.next_spec` — reading a line
* `Reader.reads_source` — a reader reads the lines of the script that is left to be read
-/

namespace DeckScript

/-! ## Where the bytes come from -/

/-- The bytes do not come from the place, if there is one. -/
def Origin.KeepsOff (k? : Option String) : Origin → Prop
  | stream _ => True
  | place key => k? ≠ some key

instance (k? : Option String) : (o : Origin) → Decidable (o.KeepsOff k?)
  | .stream _ => inferInstanceAs (Decidable True)
  | .place key => inferInstanceAs (Decidable (k? ≠ some key))

theorem Origin.bytes_congr {k? : Option String} {o : Origin} (ho : o.KeepsOff k?) {d d' : Disk}
    (h : d.AgreeOff k? d') : o.bytes d = o.bytes d' := by
  cases o with
  | stream bytes => rfl
  | place key => rw [bytes, bytes, h key ho]

namespace Reader

section Equations

variable {d : Disk} {r : Reader}

variable (h : r.kept.dropWhile (· ≠ 0x0A) = [])
include h

theorem next_of_error {reason : String} (hchunk : r.chunk d = .error reason) :
    next d r = .broken reason := by
  rw [next]
  simp only [h]
  split <;> simp_all

theorem next_of_end (hchunk : r.chunk d = .ok []) :
    next d r = if r.kept.isEmpty then .ended r else .line r.kept { r with kept := [] } := by
  rw [next]
  simp only [h]
  split <;> simp_all

theorem next_of_fetch {b : UInt8} {bs : List UInt8} (hchunk : r.chunk d = .ok (b :: bs)) :
    next d r = next d (r.fetch (b :: bs)) := by
  rw [next]
  simp only [h]
  split <;> simp_all

end Equations

/-- A reader reads the same where its origin has the same bytes. -/
theorem next_congr {d d' : Disk} {r : Reader} (h : r.origin.bytes d = r.origin.bytes d') :
    next d r = next d' r := by
  have hchunk (r : Reader) (h : r.origin.bytes d = r.origin.bytes d') : r.chunk d = r.chunk d' := by
    rw [chunk, chunk, h]
  fun_induction next d r with
  | case1 r b rest hkept => rw [next]; simp only [hkept]
  | case2 r hkept reason hc => rw [next_of_error hkept (hchunk r h ▸ hc)]
  | case3 r hkept hc hempty => rw [next_of_end hkept (hchunk r h ▸ hc), if_pos hempty]
  | case4 r hkept hc hempty => rw [next_of_end hkept (hchunk r h ▸ hc), if_neg hempty]
  | case5 r hkept b bs hc ih => rw [next_of_fetch hkept (hchunk r h ▸ hc), ih h]

/-- Reading on goes on with the same origin. -/
theorem origin_of_rest {d : Disk} {r rest : Reader} (h : (next d r).rest? = some rest) :
    rest.origin = r.origin := by
  fun_induction next d r with
  | case1 r b kept hkept =>
    cases h
    rfl
  | case2 r hkept reason hc => cases h
  | case3 r hkept hc hempty =>
    cases h
    rfl
  | case4 r hkept hc hempty =>
    cases h
    rfl
  | case5 r hkept b bs hc ih => exact ih h

/-! ## What is left to be read -/

/-- The reason why reading fails behind the bytes of the origin. -/
def failure? (r : Reader) (bytes : List UInt8) : Option String :=
  match r.breaks with
  | none => none
  | some (n, reason) => if n ≤ bytes.length then some reason else none

/-- The script that is left to be read. -/
def source (d : Disk) (r : Reader) : Source :=
  match r.origin.bytes d with
  | .error reason => ⟨r.kept, some reason⟩
  | .ok bytes => ⟨r.kept ++ r.ahead bytes, r.failure? bytes⟩

/-- The reader has not fetched more bytes than there are. -/
def InBounds (d : Disk) (r : Reader) : Prop :=
  ∀ bytes, r.origin.bytes d = .ok bytes → r.position ≤ bytes.length

/-- The second reader goes on reading the same bytes as the first one. -/
structure Continues (d : Disk) (r rest : Reader) : Prop where
  origin : rest.origin = r.origin
  breaks : rest.breaks = r.breaks
  inBounds : rest.InBounds d

variable {d : Disk} {r : Reader}

theorem inBounds_start (d : Disk) (origin : Origin) (breaks : Option (Nat × String)) :
    (start origin breaks).InBounds d := fun _ _ => Nat.zero_le _

theorem prefix_of_chunk {chunk : List UInt8} (h : r.chunk d = .ok chunk) :
    ∃ bytes, r.origin.bytes d = .ok bytes ∧ chunk <+: r.ahead bytes := by
  obtain ⟨bytes, hbytes, hcut⟩ := exists_of_chunk h
  exact ⟨bytes, hbytes, hcut ▸ List.take_prefix _ _⟩

theorem length_ahead_le (r : Reader) (bytes : List UInt8) :
    (r.ahead bytes).length ≤ bytes.length - r.position := by
  rw [ahead]
  split
  · exact Nat.le_of_eq List.length_drop
  · rw [List.length_drop, List.length_take]
    omega

/-- Fetching a chunk goes on with the same script. -/
theorem source_fetch {chunk : List UInt8} (h : r.chunk d = .ok chunk) :
    (r.fetch chunk).source d = r.source d := by
  obtain ⟨bytes, hbytes, hprefix⟩ := prefix_of_chunk h
  have horigin : (r.fetch chunk).origin = r.origin := rfl
  have hfailure : (r.fetch chunk).failure? bytes = r.failure? bytes := rfl
  have hkept : (r.fetch chunk).kept = r.kept ++ chunk := rfl
  rw [source, source, horigin, hbytes]
  dsimp only
  rw [hfailure, hkept, ahead_fetch, List.append_assoc, List.prefix_iff_eq_append.1 hprefix]

theorem continues_fetch (hr : r.InBounds d) {chunk : List UInt8} (h : r.chunk d = .ok chunk) :
    r.Continues d (r.fetch chunk) where
  origin := rfl
  breaks := rfl
  inBounds bytes hbytes := by
    obtain ⟨bytes', hbytes', hprefix⟩ := prefix_of_chunk h
    obtain rfl : bytes' = bytes := Except.ok.inj (hbytes'.symm.trans hbytes)
    have hposition := hr bytes' hbytes
    have hchunk := hprefix.length_le
    have hahead := r.length_ahead_le bytes'
    change r.position + chunk.length ≤ bytes'.length
    omega

/-- At the end there is nothing left but what is kept, and reading does not fail. -/
theorem source_of_end (h : r.chunk d = .ok []) : r.source d = ⟨r.kept, none⟩ := by
  obtain ⟨bytes, hbytes, hcut⟩ := exists_of_chunk h
  have hahead : r.ahead bytes = [] := (List.take_eq_nil_iff.1 hcut.symm).resolve_left (by decide)
  have hfailure : r.failure? bytes = none := by
    rw [failure?]
    rw [chunk, hbytes] at h
    rw [ahead] at hahead
    cases hbreaks : r.breaks with
    | none => rfl
    | some limit =>
      obtain ⟨n, reason⟩ := limit
      simp only [hbreaks] at h hahead ⊢
      rw [List.drop_eq_nil_iff, List.length_take] at hahead
      split at h
      · cases h
      · rw [if_neg (by omega)]
  rw [source, hbytes]
  dsimp only
  rw [hahead, hfailure, List.append_nil]

/-- Where reading fails there is nothing left but what is kept. -/
theorem source_of_error (hr : r.InBounds d) {reason : String} (h : r.chunk d = .error reason) :
    r.source d = ⟨r.kept, some reason⟩ := by
  rw [chunk] at h
  rw [source]
  cases hbytes : r.origin.bytes d with
  | error reason' =>
    rw [hbytes] at h
    cases h
    rfl
  | ok bytes =>
    rw [hbytes] at h
    have hposition := hr bytes hbytes
    dsimp only at h ⊢
    rw [ahead, failure?]
    cases hbreaks : r.breaks with
    | none =>
      rw [hbreaks] at h
      cases h
    | some limit =>
      obtain ⟨n, reason'⟩ := limit
      rw [hbreaks] at h
      dsimp only at h ⊢
      by_cases hn : n ≤ r.position
      · rw [if_pos hn] at h
        cases h
        have hahead : (bytes.take n).drop r.position = [] := by
          rw [List.drop_eq_nil_iff, List.length_take]
          omega
        rw [hahead, List.append_nil, if_pos (by omega)]
      · rw [if_neg hn] at h
        cases h

/-- What has not been fetched is left to be read behind what is kept. -/
theorem exists_source_eq (d : Disk) (r : Reader) : ∃ more failure,
    ∀ kept, ({ r with kept } : Reader).source d = ⟨kept ++ more, failure⟩ := by
  cases hbytes : r.origin.bytes d with
  | error reason =>
    refine ⟨[], some reason, fun kept => ?_⟩
    rw [source, hbytes, List.append_nil]
  | ok bytes =>
    refine ⟨r.ahead bytes, r.failure? bytes, fun kept => ?_⟩
    rw [source, hbytes]
    rfl

/-! ## Reading a line -/

theorem dropWhile_ne_eq_nil_iff {b : UInt8} {s : List UInt8} :
    s.dropWhile (· ≠ b) = [] ↔ b ∉ s := by
  simp only [List.dropWhile_eq_nil_iff, decide_eq_true_eq]
  exact ⟨fun h hb => h b hb rfl, fun h x hx hxb => h (hxb ▸ hx)⟩

theorem length_tail_dropWhile_lt {b : UInt8} {s : List UInt8} (h : b ∈ s) :
    (s.dropWhile (· ≠ b)).tail.length < s.length := by
  have hle := (List.dropWhile_sublist (· ≠ b) (l := s)).length_le
  have hpos := List.length_pos_of_mem h
  rw [List.length_tail]
  omega

/-- What reading a line comes to if this script is left to be read. -/
inductive Next (d : Disk) (r : Reader) (s : Source) : ReadStep Reader → Prop
  /-- A line that a break ends. -/
  | line {rest : Reader} : r.Continues d rest → 0x0A ∈ s.bytes →
    rest.source d = ⟨(s.bytes.dropWhile (· ≠ 0x0A)).tail, s.failure⟩ →
    Next d r s (.line (Text.dropReturn 0x0D (s.bytes.takeWhile (· ≠ 0x0A))) rest)
  /-- The last line, which nothing ends. -/
  | last {rest : Reader} : r.Continues d rest → 0x0A ∉ s.bytes → s.bytes ≠ [] →
    s.failure = none → rest.source d = ⟨[], none⟩ → Next d r s (.line s.bytes rest)
  | ended {rest : Reader} : r.Continues d rest → s.bytes = [] → s.failure = none →
    rest.source d = ⟨[], none⟩ → Next d r s (.ended rest)
  | broken {reason : String} : 0x0A ∉ s.bytes → s.failure = some reason →
    Next d r s (.broken reason)

/-- Going on from a reader that goes on reading. -/
theorem Next.of_continues {r' : Reader} {s : Source} {reading : ReadStep Reader}
    (h : Next d r' s reading) (hr : r.Continues d r') : Next d r s reading := by
  have hthen {rest : Reader} (h : r'.Continues d rest) : r.Continues d rest :=
    ⟨h.origin.trans hr.origin, h.breaks.trans hr.breaks, h.inBounds⟩
  cases h with
  | line hrest hmem hleft => exact .line (hthen hrest) hmem hleft
  | last hrest hmem hne hfailure hleft => exact .last (hthen hrest) hmem hne hfailure hleft
  | ended hrest hnil hfailure hleft => exact .ended (hthen hrest) hnil hfailure hleft
  | broken hmem hfailure => exact .broken hmem hfailure

/-- A line that is kept as a whole is read off what is kept. -/
theorem next_of_kept (hr : r.InBounds d) {b : UInt8} {rest : List UInt8}
    (hkept : r.kept.dropWhile (· ≠ 0x0A) = b :: rest) :
    Next d r (r.source d) (.line (Text.dropReturn 0x0D (r.kept.takeWhile (· ≠ 0x0A)))
      { r with kept := rest }) := by
  obtain ⟨more, failure, hsource⟩ := exists_source_eq d r
  have hline : r.source d = ⟨r.kept ++ more, failure⟩ := hsource r.kept
  have hmem : 0x0A ∈ r.kept := by
    by_contra hmem
    rw [dropWhile_ne_eq_nil_iff.2 hmem] at hkept
    cases hkept
  have hdrop : (r.kept ++ more).dropWhile (· ≠ 0x0A) = b :: rest ++ more := by
    rw [List.dropWhile_append, hkept]
    rfl
  -- The break is among what is kept, so what has not been fetched adds nothing to the line.
  have htake : (r.kept ++ more).takeWhile (· ≠ 0x0A) = r.kept.takeWhile (· ≠ 0x0A) := by
    have hwhole := congrArg List.length
      (List.takeWhile_append_dropWhile (p := (· ≠ 0x0A)) (l := r.kept))
    rw [hkept, List.length_append, List.length_cons] at hwhole
    rw [List.takeWhile_append, if_neg (by omega)]
  rw [← htake, hline]
  exact .line ⟨rfl, rfl, hr⟩ (List.mem_append_left _ hmem) (by rw [hsource, hdrop]; rfl)

/-- Reading a line, however its bytes come in chunks. -/
theorem next_spec (hr : r.InBounds d) : Next d r (r.source d) (next d r) := by
  fun_induction next d r with
  | case1 r b rest hkept => exact next_of_kept hr hkept
  | case2 r hkept reason hc =>
    rw [source_of_error hr hc]
    exact .broken (dropWhile_ne_eq_nil_iff.1 hkept) rfl
  | case3 r hkept hc hempty =>
    have hsource := source_of_end hc
    rw [List.isEmpty_iff.1 hempty] at hsource
    rw [hsource]
    exact .ended ⟨rfl, rfl, hr⟩ rfl rfl hsource
  | case4 r hkept hc hempty =>
    have hleft : ({ r with kept := [] } : Reader).source d = ⟨[], none⟩ := source_of_end hc
    rw [source_of_end hc]
    exact .last ⟨rfl, rfl, hr⟩ (dropWhile_ne_eq_nil_iff.1 hkept) (by simpa using hempty) rfl hleft
  | case5 r hkept b bs hc ih =>
    -- A chunk only moves from what is ahead to what is kept.
    have hfetch := continues_fetch hr hc
    rw [← source_fetch hc]
    exact (ih hfetch.inBounds).of_continues hfetch

/-- Where nothing is left, reading ends. -/
theorem exists_next_eq_ended (hr : r.InBounds d) (h : r.source d = ⟨[], none⟩) :
    ∃ rest, next d r = .ended rest := by
  have hspec := next_spec hr
  rw [h] at hspec
  generalize next d r = reading at hspec
  cases hspec with
  | line _ hmem _ => cases hmem
  | last _ _ hne _ _ => exact absurd rfl hne
  | ended => exact ⟨_, rfl⟩
  | broken _ hfailure => cases hfailure

/-! ## Reading all lines -/

end Reader

/-- The lines of a script whose first line is ended by a break. -/
theorem Source.byteLines_of_mem {s : Source} (h : 0x0A ∈ s.bytes) :
    s.byteLines = Text.dropReturn 0x0D (s.bytes.takeWhile (· ≠ 0x0A)) ::
      byteLines ⟨(s.bytes.dropWhile (· ≠ 0x0A)).tail, s.failure⟩ := by
  obtain ⟨bytes, failure⟩ := s
  dsimp only at h ⊢
  have hcut : Text.breakLines 0x0A bytes =
      (bytes.takeWhile (· ≠ 0x0A) ::
        (Text.breakLines 0x0A (bytes.dropWhile (· ≠ 0x0A)).tail).1,
      (Text.breakLines 0x0A (bytes.dropWhile (· ≠ 0x0A)).tail).2) := by
    rw [Text.breakLines]
    split
    · rename_i hnil
      exact absurd h (Reader.dropWhile_ne_eq_nil_iff.1 hnil)
    · rename_i hcons
      rw [hcons]
      rfl
  cases failure <;>
    simp only [byteLines, Text.allLines, Text.closedLines, hcut, List.map_cons, List.cons_append]

/-- Bytes without a break are a line only where the script does not break off. -/
theorem Source.byteLines_of_notMem {s : Source} (h : 0x0A ∉ s.bytes) :
    s.byteLines = if s.bytes = [] ∨ s.failure ≠ none then [] else [s.bytes] := by
  obtain ⟨bytes, failure⟩ := s
  cases failure with
  | none => simp [byteLines, Text.allLines_of_notMem h]
  | some reason => simp [byteLines, Text.closedLines, Text.breakLines_of_notMem h]

/-- A reader reads the lines of the script that is left to be read, as long as its origin holds the
same bytes. -/
theorem Reader.reads_source {d : Disk} {r : Reader} (hr : r.InBounds d) :
    ReadsLines next (fun d' => r.origin.bytes d' = r.origin.bytes d) r (r.source d).byteLines
      (r.source d).failure := by
  -- By induction on how many bytes are left: each line takes some of them.
  obtain ⟨n, hn⟩ : ∃ n, n = (r.source d).bytes.length := ⟨_, rfl⟩
  induction n using Nat.strong_induction_on generalizing r with
  | h n ih =>
    have hsame (reading : ReadStep Reader) (h : next d r = reading) :
        ∀ d', r.origin.bytes d' = r.origin.bytes d → next d' r = reading :=
      fun d' hd' => (next_congr hd').trans h
    have hspec := next_spec hr
    generalize hnext : next d r = reading at hspec
    cases hspec with
    | line hrest hmem hleft =>
      have hthen := ih _ (by rw [hn, hleft]; exact length_tail_dropWhile_lt hmem) hrest.inBounds rfl
      rw [hrest.origin, hleft] at hthen
      rw [Source.byteLines_of_mem hmem]
      exact .line (hsame _ hnext) hthen
    | last hrest hmem hne hfailure hleft =>
      have hthen := ih _ (by rw [hn, hleft]; exact List.length_pos_iff.2 hne) hrest.inBounds rfl
      rw [hrest.origin, hleft, Source.byteLines_of_notMem List.not_mem_nil, if_pos (.inl rfl)]
        at hthen
      rw [Source.byteLines_of_notMem hmem, if_neg (by simp [hne, hfailure]), hfailure]
      exact .line (hsame _ hnext) hthen
    | ended hrest hnil hfailure hleft =>
      obtain ⟨rest', hagain⟩ := exists_next_eq_ended hrest.inBounds hleft
      rw [Source.byteLines_of_notMem (by simp [hnil]), if_pos (.inl hnil), hfailure]
      refine .ended (hsame _ hnext) fun d' hd' => (next_congr ?_).trans hagain
      rw [hrest.origin, hd']
    | broken hmem hfailure =>
      rw [Source.byteLines_of_notMem hmem, hfailure, if_pos (.inr (by simp))]
      exact .broken (hsame _ hnext)

end DeckScript
