import DeckScript.Proofs.IncludeLine
import DeckScript.Proofs.Journal
import DeckScript.Proofs.LoopVariable
import DeckScript.Proofs.Readings

/-!
# The names of files

Three directives name a file by a token: one includes a file, one fills a grid with the lines of a
file, and a data block writes one. What stands between the ends of the token is the name. If double
quotes stand at both ends, nothing of the name gets lost, and if there is none at either end the
line is refused before any file is opened or written. A token with a quote at one end only is taken
as well, and its other end is cut off.

## Main definitions

* `Event.file?` — the file that an entry of the journal is about
* `Act.fileToken?` — the token that names the file of an act

## Main results

* `exists_quotedName`, `file?_eq_some_iff` — a token with quotes at both ends holds what is between
* `Act.file?_of_mem_events`, `Act.refuses_of_file?_eq_none` — an act opens and writes only the file
  that its token holds, and none if it holds none
* `files_are_named` — a run opens and writes the files that are named, if no token has a quote at
  one end only
-/

namespace DeckScript

open Literal

/-! ## Names between double quotes -/

theorem opens_quotedName (name : String) : opens (quotedName name) := by
  rw [opens, toList_quotedName]
  rfl

theorem closes_quotedName (name : String) : closes (quotedName name) := by
  rw [closes, toList_quotedName, ← List.cons_append, List.getLast?_concat]
  exact decide_eq_true rfl

/-- A text that begins and ends with a double quote, and not with the same one, is a quoted name. -/
theorem exists_quotedName {s : String} (hsize : 2 ≤ s.utf8ByteSize) (hopens : opens s)
    (hcloses : closes s) : ∃ name, s = quotedName name := by
  rw [opens, decide_eq_true_eq, List.head?_eq_some_iff] at hopens
  obtain ⟨rest, hlist⟩ := hopens
  rw [closes, decide_eq_true_eq, List.getLast?_eq_some_iff] at hcloses
  obtain ⟨front, hlast⟩ := hcloses
  rw [hlist] at hlast
  cases front with
  | nil =>
    have hquote : s = "\"" := by
      rw [← String.ofList_toList (s := s), hlist, hlast]
      rfl
    rw [hquote] at hsize
    exact absurd hsize (by decide)
  | cons c name =>
    rw [List.cons_append, List.cons.injEq] at hlast
    refine ⟨String.ofList name, String.toList_injective ?_⟩
    rw [hlist, toList_quotedName, String.toList_ofList, hlast.2]

theorem file?_eq_some_iff {token name : String} :
    file? token = some name ↔
      3 ≤ token.utf8ByteSize ∧ (opens token ∨ closes token) ∧ inner token = name := by
  rw [file?]
  split
  · rename_i h
    simp only [Bool.not_eq_true', Bool.or_eq_false_iff] at h
    rcases h with h | ⟨hopens, hcloses⟩
    · simp only [reduceCtorEq, false_iff]
      omega
    · simp [hopens, hcloses]
  · rename_i h
    rw [not_or, Nat.not_lt, Bool.not_eq_true', Bool.not_eq_false, Bool.or_eq_true] at h
    simp [h.1, h.2]

/-- The token has a double quote at both of its ends, or at neither. -/
def IsEvenlyQuoted (token : String) : Prop := opens token = closes token

instance : DecidablePred IsEvenlyQuoted := fun _ => inferInstanceAs (Decidable (_ = _))

/-- Of a name between two quotes nothing is lost. -/
theorem IsEvenlyQuoted.file?_eq_some_iff {token name : String} (h : IsEvenlyQuoted token) :
    file? token = some name ↔ name ≠ "" ∧ token = quotedName name := by
  constructor
  · intro hfile
    obtain ⟨hsize, hquote, hinner⟩ := DeckScript.file?_eq_some_iff.1 hfile
    have hboth : opens token ∧ closes token := by
      rw [IsEvenlyQuoted] at h
      rw [h, or_self] at hquote
      exact ⟨h.trans hquote, hquote⟩
    obtain ⟨between, rfl⟩ := exists_quotedName (Nat.le_of_succ_le hsize) hboth.1 hboth.2
    rw [inner_quotedName] at hinner
    refine ⟨?_, by rw [hinner]⟩
    rintro rfl
    rw [hinner] at hsize
    exact absurd hsize (by decide)
  · rintro ⟨hname, rfl⟩
    exact file?_quotedName hname

/-! ## The directives that name files -/

/-- The file that an entry of the journal is about. -/
def Event.file? : Event → Option String
  | .opened name | .saved name _ => some name
  | .traced .. | .called _ => none

/-- The file that a request asks for. -/
def Request.file? : Request → Option String
  | .enter name | .fillGrid name _ => some name
  | .emit _ | .chart _ | .set .. | .run _ => none

/-- A keyword whose lines name a file. -/
def IsFileKeyword (keyword : String) : Prop := keyword = "include" ∨ keyword = "grid"

instance : DecidablePred IsFileKeyword := fun _ => inferInstanceAs (Decidable (_ ∨ _))

theorem fileName_eq_ok_iff {token name : String} :
    fileName token = .ok name ↔ Literal.file? token = some name := by
  rw [fileName]
  cases Literal.file? token <;> simp

section Standard

open Directive

theorem exists_of_inclusion_ask {store : Store} {r : Record} {request : Request}
    (h : inclusion.ask store r = .ok request) :
    ∃ name, request = .enter name ∧ Literal.file? (r.arg 1) = some name := by
  obtain ⟨name, hname, rfl⟩ := exists_of_map_eq_ok (exists_of_ask_eq_ok h)
  exact ⟨name, rfl, fileName_eq_ok_iff.1 hname⟩

theorem exists_of_grid_ask {store : Store} {r : Record} {request : Request}
    (h : grid.ask store r = .ok request) :
    ∃ name layout, request = .fillGrid name layout ∧ Literal.file? (r.arg 1) = some name := by
  obtain ⟨x, -, h⟩ := exists_of_bind_eq_ok (exists_of_ask_eq_ok h)
  obtain ⟨y, -, h⟩ := exists_of_bind_eq_ok h
  obtain ⟨xStep, -, h⟩ := exists_of_bind_eq_ok h
  obtain ⟨yStep, -, h⟩ := exists_of_bind_eq_ok h
  obtain ⟨limit, -, h⟩ := exists_of_bind_eq_ok h
  obtain ⟨name, hname, h⟩ := exists_of_bind_eq_ok h
  cases h
  exact ⟨name, _, rfl, fileName_eq_ok_iff.1 hname⟩

/-- A directive that asks for a file stands at a keyword for files, and its first argument names the
file. -/
theorem file?_of_mem_standardEntries : ∀ e ∈ Vocabulary.standardEntries, ∀ store r request name,
    e.2.ask store r = .ok request → request.file? = some name →
      IsFileKeyword e.1 ∧ Literal.file? (r.arg 1) = some name := by
  refine Vocabulary.forall_mem_standardEntries ?_ ?_ ?_ ?_ ?_
  · intro keyword arity synopsis f store r request name hask hfile
    obtain ⟨elements, -, rfl⟩ := exists_of_ask_eq_ok hask
    cases hfile
  · intro store r request name hask hfile
    obtain ⟨_, rfl, hname⟩ := exists_of_inclusion_ask hask
    cases hfile
    exact ⟨.inl rfl, hname⟩
  · intro store r request name hask hfile
    obtain ⟨_, _, rfl, hname⟩ := exists_of_grid_ask hask
    cases hfile
    exact ⟨.inr rfl, hname⟩
  -- A chart asks for no file.
  all_goals
    intro store r request name hask hfile
    obtain rfl := Except.ok.inj (exists_of_ask_eq_ok hask)
    cases hfile

end Standard

/-! ## The files of acts -/

variable {φ : Type} [FileStore φ] {env : Environment}

/-- The line that an act carries out. -/
def Act.record : Act φ → Record
  | call p => p.record
  | loop header _ w | data header _ w => header.record w.store

/-- The token that names the file of an act. A loop over a file has rules of its own. -/
def Act.fileToken? (a : Act φ) : Option String :=
  match a with
  | call p => if IsFileKeyword p.record.keyword then some (a.record.arg 1) else none
  | data .. => some (a.record.arg 1)
  | loop .. => none

omit [FileStore φ] in
theorem Request.file?_of_mem_events {request : Request} {w : World φ} {e : Event} {name : String}
    (he : e ∈ request.events env w) (hname : e.file? = some name) : request.file? = some name := by
  cases request with
  | enter file =>
    rw [events] at he
    split at he
    · cases he
    · obtain rfl := List.mem_singleton.1 he
      exact hname
  | fillGrid file layout =>
    obtain rfl := List.mem_singleton.1 he
    exact hname
  | chart command =>
    obtain rfl := List.mem_singleton.1 he
    cases hname
  | emit elements | set key value | run text => cases he

omit [FileStore φ] in
/-- A file that an act opens or writes is the one that its token holds, but for loops. -/
theorem Act.file?_of_mem_events (hstandard : env.vocabulary = .standard) {a : Act φ} {e : Event}
    {name : String} (he : e ∈ a.events env) (hname : e.file? = some name) :
    (∃ header body w, a = .loop header body w) ∨
      ∃ token, a.fileToken? = some token ∧ Literal.file? token = some name := by
  cases a with
  | loop header body w => exact .inl ⟨header, body, w, rfl⟩
  | data header rows w =>
    refine .inr ⟨_, rfl, ?_⟩
    rw [events] at he
    cases htarget : Data.target (header.record w.store) with
    | error fault =>
      rw [htarget] at he
      cases he
    | ok file =>
      rw [htarget] at he
      obtain rfl := List.mem_singleton.1 he
      cases hname
      rw [Data.target] at htarget
      split at htarget
      · exact fileName_eq_ok_iff.1 htarget
      · cases htarget
  | call p =>
    rw [events] at he
    rcases List.mem_append.1 he with he | he
    · split at he
      · obtain rfl := List.mem_singleton.1 he
        cases hname
      · cases he
    · cases hrequest : p.request? env with
      | none =>
        rw [hrequest] at he
        cases he
      | some request =>
        rw [hrequest] at he
        obtain ⟨d, hd, hask⟩ := Call.request?_eq_some_iff.1 hrequest
        rw [hstandard] at hd
        have hfile := Request.file?_of_mem_events he hname
        obtain ⟨hkeyword, htoken⟩ :=
          file?_of_mem_standardEntries _ (Table.mem_of_get?_ofList hd) _ _ _ name hask hfile
        exact .inr ⟨_, if_pos hkeyword, htoken⟩

/-! ## Tokens that name no file -/

/-- A fault that a line with a wrong file name may have: one of its shape, or of a number that is
read before the name. -/
def Fault.RefusesFile (keyword : String) (f : Fault) : Prop :=
  f.kind = .usage ∨ keyword = "grid" ∧ ∃ token, f = .notANumber token

section Standard

open Directive

theorem refusesFile_inclusion (store : Store) (r : Record) :
    FaultsOnly (Fault.RefusesFile "include") (inclusion.ask store r) := by
  rw [ask]
  split
  · refine (faultsOnly_fileName _).map _ |>.mono ?_
    rintro _ rfl
    exact .inl rfl
  · exact .error (.inl rfl)

theorem refusesFile_grid (store : Store) (r : Record) :
    FaultsOnly (Fault.RefusesFile "grid") (grid.ask store r) := by
  have hnumber (i : Nat) : FaultsOnly (Fault.RefusesFile "grid") (gridNumber store r i) := by
    refine (faultsOnly_number _).mono ?_
    rintro _ ⟨rfl, -⟩
    exact .inr ⟨rfl, _, rfl⟩
  have hname : FaultsOnly (Fault.RefusesFile "grid") (fileName (r.arg 1)) := by
    refine (faultsOnly_fileName _).mono ?_
    rintro _ rfl
    exact .inl rfl
  rw [ask]
  split
  · refine (hnumber 2).bind fun x => (hnumber 3).bind fun y => (hnumber 4).bind fun xStep => ?_
    exact (hnumber 5).bind fun yStep => (hnumber 6).bind fun limit => hname.bind fun file => .ok _
  · exact .error (.inl rfl)

/-- A line of a keyword for files whose token names none is refused. -/
theorem exists_refusesFile {keyword : String} (hkeyword : IsFileKeyword keyword) {store : Store}
    {r : Record} (hname : Literal.file? (r.arg 1) = none) :
    ∃ d f, Vocabulary.standard.get? keyword = some d ∧ d.ask store r = .error f ∧
      f.RefusesFile keyword := by
  rcases hkeyword with rfl | rfl
  · refine ⟨inclusion, ?_⟩
    cases hask : inclusion.ask store r with
    | error f => exact ⟨f, rfl, rfl, refusesFile_inclusion store r f hask⟩
    | ok request =>
      obtain ⟨_, -, hfile⟩ := exists_of_inclusion_ask hask
      rw [hname] at hfile
      cases hfile
  · refine ⟨grid, ?_⟩
    cases hask : grid.ask store r with
    | error f => exact ⟨f, rfl, rfl, refusesFile_grid store r f hask⟩
    | ok request =>
      obtain ⟨_, _, -, hfile⟩ := exists_of_grid_ask hask
      rw [hname] at hfile
      cases hfile

end Standard

theorem Call.fault?_of_ask {p : Call φ} {d : Directive} {f : Fault}
    (hd : env.vocabulary.get? p.record.keyword = some d)
    (hask : d.ask p.world.store p.record = .error f) : (Act.call p).fault? env = some f := by
  rw [Act.fault?, Act.attempt, execute, hd]
  simp only [announce_store, hask]
  rfl

theorem Act.fault?_of_target {header : SourceLine} {rows : List SourceLine} {w : World φ}
    {f : Fault} (h : Data.target (header.record w.store) = .error f) :
    (Act.data header rows w).fault? env = some f := by
  rw [Act.fault?, Act.attempt, runData, h]
  rfl

/-- An act whose token names no file opens and writes none, and its line is refused. -/
theorem Act.refuses_of_file?_eq_none (hstandard : env.vocabulary = .standard) {a : Act φ}
    {token : String} (htoken : a.fileToken? = some token) (hname : Literal.file? token = none) :
    (∀ e ∈ a.events env, e.file? = none) ∧
      ∃ f, a.fault? env = some f ∧ f.RefusesFile a.record.keyword := by
  constructor
  -- A file that the act opens or writes would be held by its token.
  · intro e he
    cases hfile : e.file? with
    | none => rfl
    | some name =>
      obtain ⟨_, _, _, rfl⟩ | ⟨other, hother, hheld⟩ := file?_of_mem_events hstandard he hfile
      · cases htoken
      · obtain rfl := Option.some.inj (hother.symm.trans htoken)
        rw [hname] at hheld
        cases hheld
  · cases a with
    | loop header body w => cases htoken
    | data header rows w =>
      obtain rfl := Option.some.inj htoken
      cases htarget : Data.target (header.record w.store) with
      | error f => exact ⟨f, fault?_of_target htarget, .inl (faultsOnly_target _ f htarget)⟩
      | ok name =>
        rw [Data.target] at htarget
        split at htarget
        · rw [fileName_eq_ok_iff] at htarget
          cases hname.symm.trans htarget
        · cases htarget
    | call p =>
      rw [fileToken?] at htoken
      split at htoken
      · rename_i hkeyword
        obtain rfl := Option.some.inj htoken
        obtain ⟨d, f, hd, hask, hrefuses⟩ := exists_refusesFile hkeyword hname
        exact ⟨f, Call.fault?_of_ask (hstandard ▸ hd) hask, hrefuses⟩
      · cases htoken

/-! ## The files of a run -/

/-- In a run with the standard vocabulary the journal is what the acts note, and a file that an act
other than a loop opens or writes is the one that its token holds. If the token has a double quote
at both ends or at neither, it is the name between two double quotes: nothing of the name is lost.
If it is no such name, no file is opened or written and the line is refused for its shape, a grid
for one of its numbers if they are wrong as well. -/
theorem files_are_named (hstandard : env.vocabulary = .standard) :
    (∀ levels source (w : World φ), (run env levels source w).world.journal =
      ((history env levels source w).flatMap (Act.events env)).reverse ++ w.journal) ∧
    ∀ a : Act φ,
      (∀ e ∈ a.events env, ∀ name, e.file? = some name →
        (∃ header body w, a = .loop header body w) ∨
          ∃ token, a.fileToken? = some token ∧ Literal.file? token = some name) ∧
      ∀ token, a.fileToken? = some token → IsEvenlyQuoted token →
        (∀ e ∈ a.events env, ∀ name, e.file? = some name → name ≠ "" ∧ token = quotedName name) ∧
        ((∀ name, name ≠ "" → token ≠ quotedName name) →
          (∀ e ∈ a.events env, e.file? = none) ∧
            ∃ f, a.fault? env = some f ∧ f.RefusesFile a.record.keyword) := by
  refine ⟨fun levels source w => journal_run env levels source w, fun a => ⟨?_, ?_⟩⟩
  · intro e he name hname
    exact Act.file?_of_mem_events hstandard he hname
  · intro token htoken heven
    constructor
    · intro e he name hname
      obtain ⟨_, _, _, rfl⟩ | ⟨other, hother, hheld⟩ := Act.file?_of_mem_events hstandard he hname
      · cases htoken
      · obtain rfl := Option.some.inj (hother.symm.trans htoken)
        exact heven.file?_eq_some_iff.1 hheld
    · intro hnone
      refine Act.refuses_of_file?_eq_none hstandard htoken ?_
      cases hheld : Literal.file? token with
      | none => rfl
      | some name =>
        obtain ⟨hname, heq⟩ := heven.file?_eq_some_iff.1 hheld
        exact absurd heq (hnone name hname)

theorem files_are_named_include :
    let named : Act MemoryFiles :=
      .call ⟨.ofLine .empty 1 "include \"part\"", bareWorld .empty⟩
    let unnamed : Act MemoryFiles := .call ⟨.ofLine .empty 1 "include part", bareWorld .empty⟩
    bareEnvironment.vocabulary = .standard ∧ named.fileToken? = some "\"part\"" ∧
      IsEvenlyQuoted "\"part\"" ∧ .opened "part" ∈ named.events bareEnvironment ∧
      "\"part\"" = quotedName "part" ∧ unnamed.fileToken? = some "part" ∧ IsEvenlyQuoted "part" ∧
      (∀ e ∈ unnamed.events bareEnvironment, e.file? = none) ∧
      ∃ f, unnamed.fault? bareEnvironment = some f ∧ f.RefusesFile unnamed.record.keyword := by
  intro named unnamed
  have hstandard : bareEnvironment.vocabulary = .standard := rfl
  have hnamed : named.fileToken? = some "\"part\"" := by decide +kernel
  have hopened : .opened "part" ∈ named.events bareEnvironment := by decide +kernel
  have hunnamed : unnamed.fileToken? = some "part" := by decide +kernel
  have heven : IsEvenlyQuoted "\"part\"" := by decide +kernel
  have heven' : IsEvenlyQuoted "part" := by decide +kernel
  have hne (name : String) (_ : name ≠ "") : "part" ≠ quotedName name := by
    intro h
    have hopens := opens_quotedName name
    rw [← h] at hopens
    exact absurd hopens (by decide)
  obtain ⟨hname, -⟩ := (((files_are_named hstandard).2 named).2 _ hnamed heven)
  obtain ⟨-, hrefuses⟩ := (((files_are_named hstandard).2 unnamed).2 _ hunnamed heven')
  obtain ⟨hnothing, hfault⟩ := hrefuses hne
  exact ⟨hstandard, hnamed, heven, hopened, (hname _ hopened "part" rfl).2, hunnamed, heven',
    hnothing, hfault⟩

/-- Of a name that is not closed the last character is cut off, and the file of the rest is opened
or written. -/
theorem open_name_is_cut :
    Literal.file? "\"abcd" = some "abc" ∧
      (dispatch bareEnvironment 1 (Record.ofLine .empty 1 "include \"abcd")
        (bareWorld .empty)).world.journal = [.opened "abc"] ∧
      (runBlock (dispatch bareEnvironment 1) (.data ⟨1, "data \"abcd"⟩ [])
        (bareWorld .empty)).world.journal = [.saved "abc" ""] := by
  decide +kernel

end DeckScript
