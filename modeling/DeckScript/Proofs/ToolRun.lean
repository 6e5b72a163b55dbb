import DeckScript.Proofs.Composition
import DeckScript.Proofs.LimitedOutput
import DeckScript.Proofs.TwoDisks
import DeckScript.Tool.Session

/-!
# The tool and the compilation it carries out

The tool refuses what it cannot understand, then a script that cannot be opened, then a file for the
markup that cannot be created, and up to there it changes nothing. After that it compiles. Its
status, its messages and the markup are those of a compilation on the disk as it was before the file
for the markup was created, with a seed of its own if none is set, and with an output that takes
everything. This holds for all scripts that keep off that file and draw no random numbers without a
seed, whatever programs there are, if these keep off that file too.

If not all of the markup gets through, its first bytes do, and the tool tells what a first part of
that compilation tells, with the failure behind it.

Both compilations read the script while it runs. As long as the script is not among the files that
are replaced under way, this is the compilation of the script as it stood before.

## Main definitions

* `Host.Understood` — the settings of a run
* `Completion.Refuses` — the tool gives up before it does anything
* `Completion.Tells`, `Completion.Delivers` — the tool tells how a compilation ended, and delivers
  markup
* `Completion.CutOff` — the tool tells and delivers a first part of a compilation

## Main results

* `runWithin_agrees` — which of these the tool does, and that it does nothing else
-/

namespace DeckScript

/-- The key of the place on the disk that bytes come from. -/
def Origin.key? : Origin → Option String
  | stream _ => none
  | place key => some key

theorem Origin.bytes_eq_of_agreeAt {o : Origin} {d d' : Disk} (h : d.AgreeAt o.key? d') :
    o.bytes d' = o.bytes d := by
  cases o with
  | stream bytes => rfl
  | place key => rw [bytes, bytes, h key rfl]

namespace Tool

/-! ## What a run is to do -/

/-- The arguments and the environment are understood, and give these settings. -/
def Host.Understood (host : Host) (a : Arguments) (s : Settings) : Prop :=
  host.parse host.arguments = .ok a ∧
    ∃ t, Settings.ofEnvironment host.environment = .ok t ∧ a.apply t = s

/-- The key of the place on the disk where the markup goes, if it goes to the disk. -/
def Destination.key? : Destination → Option String
  | standardOutput => none
  | place key _ => some key

/-- So many bytes get through. -/
def Sink.Holds : Sink → Nat → Prop
  | endless, _ => True
  | limited kept _ _ _, n => n ≤ kept

namespace Completion

/-- The tool ended with one message and a status. It printed nothing and left the disk alone. -/
structure Refuses (done : Completion) (host : Host) (status : Nat) : Prop where
  status : done.status = status
  printed : done.printed = .empty
  message : done.messages.length = 1
  disk : done.disk = host.disk

/-- The status and the messages tell how a compilation ended. If it was cut short, the failure
stands behind what was reported up to there. -/
structure Tells {φ : Type} (done : Completion) (result : Verdict × World φ) : Prop where
  completed : result.1 = .completed →
    done.status = (if result.2.report.isEmpty then 0 else 3) ∧
      done.messages = reportLines result.2.report
  failed : ∀ failure, result.1 = .failed failure →
    done.status = 4 ∧ done.messages = reportLines result.2.report ++ [say failure.message]

/-- The markup is printed or stands in the file that was created for it, and all other files are
these. -/
structure Delivers (done : Completion) (destination : Destination) (files : Disk)
    (markup : ByteArray) : Prop where
  printed : done.printed = if destination.key? = none then markup else .empty
  file : ∀ key contents, destination = .place key (.file contents) →
    done.disk.nodes.get? key = some (.file markup)
  rest : files.AgreeOff destination.key? done.disk

/-- Of the markup of a compilation only the first bytes got through. The tool failed with status 4.
It tells what was reported in a first part of the compilation and then why it failed: the output
refused something, or all was taken and the compilation itself failed. The other files are as that
part of the compilation left them. -/
structure CutOff (done : Completion) (host : Host) (destination : Destination)
    (result : Verdict × World Disk) (kept : Nat) (reason : String) : Prop where
  status : done.status = 4
  messages : ∃ report failure, done.messages = reportLines report ++ [say failure.message] ∧
    report.toList <+: result.2.report.toList ∧
    (failure = .write reason ∨ result.1 = .failed failure ∧ report = result.2.report)
  delivers : ∃ earlier later, result.2.journal = later ++ earlier ∧
    done.Delivers destination (replay earlier host.disk) (result.2.output.bytes.extract 0 kept)

end Completion

/-! ## Before the compilation -/

section Opening

variable {host : Host} {a : Arguments} {s : Settings} {levels readings : Nat}

theorem refuses_refuse (host : Host) (status : Nat) (message : String) :
    (host.refuse status message).Refuses host status :=
  ⟨rfl, rfl, rfl, rfl⟩

theorem Host.Understood.runWithin_eq (h : host.Understood a s) :
    host.runWithin levels readings = host.runWith levels readings a s := by
  obtain ⟨harguments, t, henvironment, rfl⟩ := h
  rw [runWithin, harguments]
  dsimp only
  rw [henvironment]

/-- What is not understood is refused, unless it asks for a text. -/
theorem refuses_of_not_understood (h : ¬∃ a s, host.Understood a s)
    (hasks : ∀ notice, host.parse host.arguments = .error notice → notice.refuses) :
    (host.runWithin levels readings).Refuses host 64 := by
  rw [Host.runWithin]
  cases harguments : host.parse host.arguments with
  | error notice =>
    obtain ⟨text, refuses⟩ := notice
    obtain rfl : refuses = true := hasks _ harguments
    exact refuses_refuse ..
  | ok a =>
    cases henvironment : Settings.ofEnvironment host.environment with
    | error refusal => exact refuses_refuse ..
    | ok t => exact absurd ⟨a, _, harguments, t, henvironment, rfl⟩ h

/-- Creating the file for the markup changes nothing else. A file is empty then. -/
theorem agreeOff_openDestination {created : Disk} {output : Option String}
    {destination : Destination}
    (h : host.openDestination output = .ok (created, destination)) :
    host.disk.AgreeOff destination.key? created ∧ ∀ key contents,
      destination = .place key (.file contents) →
        created.nodes.get? key = some (.file .empty) := by
  cases output with
  | none =>
    cases h
    exact ⟨.refl none _, nofun⟩
  | some path =>
    rw [Host.openDestination] at h
    cases hcreate : host.disk.create path with
    | error refusal =>
      rw [hcreate] at h
      cases h
    | ok made =>
      obtain ⟨d, key, node⟩ := made
      rw [hcreate] at h
      cases h
      obtain ⟨hoff, hget, hempty⟩ := Disk.agreeOff_create hcreate
      refine ⟨hoff, ?_⟩
      rintro _ contents ⟨⟩
      rw [hget, hempty contents rfl]

end Opening

/-! ## The compilation of the tool -/

/-- How the tool ends after a compilation. -/
def Completion.ofCompilation (destination : Destination) (result : Verdict × World Disk) :
    Completion :=
  let delivered := destination.deliver result.2.files result.2.output.delivered
  ⟨statusOf result.2.report result.1, delivered.1,
    traceLines result.2.journal ++ reportLines result.2.report ++ verdictLines result.1,
    delivered.2, namedFiles result.2.journal⟩

section Compilations

variable (host : Host) (levels readings : Nat) (s : Settings) (reader : Reader)

theorem compileInto_eq (destination : Destination) (disk : Disk) :
    host.compileInto levels readings s reader destination disk =
      .ofCompilation destination (host.compilation levels readings s reader
        (s.seed.getD host.entropy) disk (host.sink destination).output) := rfl

variable (seed : UInt64) (disk : Disk) (output : Output)

/-- The journal of a compilation tells what became of the disk. -/
theorem files_compilation :
    (host.compilation levels readings s reader seed disk output).2.files =
      replay (host.compilation levels readings s reader seed disk output).2.journal disk :=
  files_compileReading _ levels Reader.next readings reader rfl

theorem reach_compilation :
    (host.compilation levels readings s reader seed disk output).2.output.reach = output.reach :=
  (precedes_compileReading _ levels Reader.next readings reader (worldOf seed disk output)).reach

/-- A run that is not traced tells nothing of its lines. -/
theorem traceLines_compilation (htrace : s.trace = false) :
    traceLines (host.compilation levels readings s reader seed disk output).2.journal = [] := by
  rw [traceLines, List.filterMap_eq_nil_iff]
  intro e he
  have huntraced := isTrace_eq_false_of_untraced (fun _ _ => Vocabulary.ignoresPlace) Reader.next
    htrace rfl (List.mem_reverse.1 he)
  cases e with
  | traced line tokens => cases huntraced
  | opened name | saved name contents | called command => rfl

/-- The compilation on a disk that is the same off one place, and with another seed if none is
set. -/
theorem mirroredEnd_compilation {k? : Option String} {created : Disk}
    (hdisk : disk.AgreeOff k? created) (hreader : reader.origin.KeepsOff k?)
    (entropy entropy' : UInt64) :
    MirroredEnd host.programs k? s.seed.isSome created
      (host.compilation levels readings s reader (s.seed.getD entropy) disk output)
      (host.compilation levels readings s reader (s.seed.getD entropy') created output) := by
  refine compileReading_mirrors hreader readings ⟨hdisk, fun _ _ => rfl, fun hseeded => ?_, rfl⟩
  obtain ⟨seed, hseed⟩ := Option.isSome_iff_exists.1 hseeded
  rw [hseed]
  rfl

theorem limitedEnd_compilation (taken : Nat) (reach : Option Nat) (reason : String) :
    LimitedEnd taken reach reason
      (host.compilation levels readings s reader seed disk .unlimited)
      (host.compilation levels readings s reader seed disk
        ⟨.empty, some taken, reach, reason⟩) :=
  compileReading_limited _ levels Reader.next readings reader (worldOf seed disk .unlimited) taken
    reach reason

end Compilations

section Ends

theorem Completion.Tells.of_eq {φ ψ : Type} {done : Completion} {a : Verdict × World φ}
    {b : Verdict × World ψ} (h : done.Tells a) (hverdict : a.1 = b.1)
    (hreport : a.2.report = b.2.report) : done.Tells b where
  completed hb := hreport ▸ h.completed (hverdict.trans hb)
  failed failure hb := hreport ▸ h.failed failure (hverdict.trans hb)

variable {destination : Destination} {result : Verdict × World Disk}

theorem tells_ofCompilation (htraces : traceLines result.2.journal = []) :
    (Completion.ofCompilation destination result).Tells result := by
  rw [Completion.ofCompilation, htraces, List.nil_append]
  refine ⟨fun hcompleted => ?_, fun failure hfailed => ?_⟩
  · rw [hcompleted]
    exact ⟨rfl, List.append_nil _⟩
  · rw [hfailed]
    exact ⟨rfl, rfl⟩

theorem delivers_of_get? (hfile : ∀ key contents, destination = .place key (.file contents) →
      result.2.files.nodes.get? key = some (.file .empty)) :
    (Completion.ofCompilation destination result).Delivers destination result.2.files
      result.2.output.delivered := by
  cases destination with
  | standardOutput => exact ⟨rfl, nofun, .refl none _⟩
  | place key node =>
    refine ⟨rfl, ?_, Disk.agreeOff_overwrite _ key _⟩
    rintro _ contents ⟨⟩
    exact Disk.get?_overwrite (hfile key contents rfl) _

/-- Let a compilation keep off the file that was created for the markup. Then its markup is
delivered there, and the other files are what its journal makes of those before the file was
created. -/
theorem delivers_ofCompilation {disk created : Disk}
    (hdisk : disk.AgreeOff destination.key? created)
    (hfile : ∀ key contents, destination = .place key (.file contents) →
      created.nodes.get? key = some (.file .empty))
    (hfiles : result.2.files = replay result.2.journal created)
    (havoids : ∀ e ∈ result.2.journal, e.Avoids destination.key?) :
    (Completion.ofCompilation destination result).Delivers destination
      (replay result.2.journal disk) result.2.output.delivered := by
  have hoff : (replay result.2.journal disk).AgreeOff destination.key? result.2.files :=
    hfiles ▸ hdisk.replay havoids
  have hat : created.AgreeAt destination.key? result.2.files :=
    hfiles ▸ Disk.agreeAt_replay (fun _ _ h => havoids _ h) created
  have hdelivers : (Completion.ofCompilation destination result).Delivers destination
      result.2.files result.2.output.delivered :=
    delivers_of_get? fun key contents hplace =>
      (hat key (by rw [hplace]; rfl)).symm.trans (hfile key contents hplace)
  exact ⟨hdelivers.printed, hdelivers.file, hoff.trans hdelivers.rest⟩

end Ends

section Compiling

variable {programs : Runner} {seeded : Prop} {destination : Destination} {disk created : Disk}
  {library full own : Verdict × World Disk}
  -- The file for the markup was created on the disk.
  (hdisk : disk.AgreeOff destination.key? created)
  (hfile : ∀ key contents, destination = .place key (.file contents) →
    created.nodes.get? key = some (.file .empty))
  -- One compilation runs on the disk as it was before, and another one mirrors it on the new disk.
  (hindependent : library.2.Independent programs destination.key? seeded)
  (hverdict : full.1 = library.1)
  (hmirrors : library.2.Mirrors destination.key? seeded created full.2)
  -- The tool's own compilation is like the second one, but for its output.
  (hfiles : own.2.files = replay own.2.journal created)
  (htraces : traceLines own.2.journal = [])
include hdisk hfile hindependent hverdict hmirrors hfiles htraces

/-- If the output makes no difference, the tool agrees with the first compilation. -/
theorem agrees_of_same (hlibrary : library.2.files = replay library.2.journal disk)
    (hsame : own.1 = full.1 ∧ own.2 = { full.2 with output := own.2.output } ∧
      own.2.output.delivered = full.2.output.bytes) :
    (Completion.ofCompilation destination own).Tells library ∧
      (Completion.ofCompilation destination own).Delivers destination library.2.files
        library.2.output.bytes := by
  obtain ⟨hends, hrest, hdelivered⟩ := hsame
  have hreport : own.2.report = library.2.report := by rw [hrest, ← hmirrors.report]
  have hjournal : own.2.journal = library.2.journal := by rw [hrest, hmirrors.eq]
  have htells : (Completion.ofCompilation destination own).Tells own := tells_ofCompilation htraces
  have hdelivers := delivers_ofCompilation hdisk hfile hfiles
    (by rw [hjournal]; exact hindependent.journal)
  rw [hdelivered, hjournal, ← hlibrary, hmirrors.output] at hdelivers
  exact ⟨htells.of_eq (hends.trans hverdict) hreport, hdelivers⟩

/-- If the output is used up before the end, the tool agrees with a first part of the first
compilation. -/
theorem cutOff_of_limitedEnd {host : Host} (hhost : host.disk = disk) {kept taken : Nat}
    {reason : String} (hkept : kept ≤ taken)
    (hend : LimitedEnd taken (some kept) reason full own) (hends : library.1 ≠ .exhausted)
    (hreach : own.2.output.reach = some kept) (hsize : kept < library.2.output.bytes.size) :
    (Completion.ofCompilation destination own).CutOff host destination library kept reason := by
  have htells : (Completion.ofCompilation destination own).Tells own := tells_ofCompilation htraces
  rw [← hverdict] at hends
  rw [← hmirrors.output] at hsize
  obtain ⟨hdelivered, ⟨later, hlater, -⟩, hprefix, failure, hfailed, hcause⟩ :=
    hend.cut_of_lt_size hkept hends hreach hsize
  have hjournal : library.2.journal = later ++ own.2.journal := by
    rw [← hlater, hmirrors.eq]
  have hdelivers := delivers_ofCompilation hdisk hfile hfiles fun e he =>
    hindependent.journal e (by rw [hjournal]; exact List.mem_append_right later he)
  rw [hdelivered, hmirrors.output, ← hhost] at hdelivers
  rw [hmirrors.report] at hprefix hcause
  rw [hverdict] at hcause
  obtain ⟨hstatus, hmessages⟩ := htells.failed failure hfailed
  exact ⟨hstatus, ⟨own.2.report, failure, hmessages, hprefix, hcause⟩, _, later, hjournal,
    hdelivers⟩

end Compiling

/-- A compilation of the tool, after the file for the markup is created, beside the one on the disk
as it was before, with an output that takes everything. -/
theorem compileInto_agrees {host : Host} {levels readings : Nat} {s : Settings} {reader : Reader}
    {destination : Destination} {created : Disk} {entropy : UInt64} (htrace : s.trace = false)
    (hdisk : host.disk.AgreeOff destination.key? created)
    (hfile : ∀ key contents, destination = .place key (.file contents) →
      created.nodes.get? key = some (.file .empty))
    (hreader : reader.origin.KeepsOff destination.key?) :
    let done := host.compileInto levels readings s reader destination created
    let library := host.compilation levels readings s reader (s.seed.getD entropy) host.disk
      .unlimited
    library.1 ≠ .exhausted →
    library.2.Independent host.programs destination.key? s.seed.isSome →
      ((host.sink destination).Holds library.2.output.bytes.size →
        done.Tells library ∧
          done.Delivers destination library.2.files library.2.output.bytes) ∧
      ∀ kept taken reason h, host.sink destination = .limited kept taken reason h →
        kept < library.2.output.bytes.size →
          done.CutOff host destination library kept reason := by
  intro done library hends hindependent
  obtain ⟨hverdict, hmirrors⟩ := mirroredEnd_compilation host levels readings s reader host.disk
    .unlimited hdisk hreader entropy host.entropy hends hindependent
  have hlibrary := files_compilation host levels readings s reader (s.seed.getD entropy) host.disk
    .unlimited
  have hfiles := files_compilation host levels readings s reader (s.seed.getD host.entropy)
    created
  have htraces := traceLines_compilation host levels readings s reader
    (s.seed.getD host.entropy) created
  have hreach := reach_compilation host levels readings s reader (s.seed.getD host.entropy) created
  rw [show done = _ from compileInto_eq ..]
  cases hsink : host.sink destination with
  | endless =>
    refine ⟨fun _ => ?_, nofun⟩
    refine agrees_of_same hdisk hfile hindependent hverdict hmirrors (hfiles _)
      (htraces _ htrace) hlibrary ⟨rfl, rfl, ?_⟩
    rw [Output.delivered, hreach]
    rfl
  | limited kept taken reason h =>
    have hend := limitedEnd_compilation host levels readings s reader (s.seed.getD host.entropy)
      created taken (some kept) reason
    refine ⟨fun hholds => ?_, ?_⟩
    · refine agrees_of_same hdisk hfile hindependent hverdict hmirrors (hfiles _)
        (htraces _ htrace) hlibrary (hend.eq_of_size_le h ?_)
      rw [← hmirrors.output] at hholds
      exact hholds
    · rintro kept taken reason - ⟨⟩ hsize
      exact cutOff_of_limitedEnd hdisk hfile hindependent hverdict hmirrors (hfiles _)
        (htraces _ htrace) rfl h hend hends (hreach _) hsize

/-- As long as the place that the script comes from is not written to, the compilation is that of
the script as it stood before. -/
theorem compilation_eq_compile {host : Host} {levels readings : Nat} {s : Settings}
    {reader : Reader} {seed : UInt64} {disk : Disk} {output : Output}
    (hreader : reader.InBounds disk)
    (hreadings : (reader.source disk).byteLines.length + 2 ≤ readings)
    (hkeeps : ∀ path contents, .saved path contents ∈
      (host.compilation levels readings s reader seed disk output).2.journal →
        Disk.Avoids path reader.origin.key?) :
    host.compilation levels readings s reader seed disk output =
      compile (environmentWith host.programs s) levels (reader.source disk)
        (worldOf seed disk output) := by
  refine compileReading_eq_compile (Reader.reads_source hreader) hreadings fun u hstart hend => ?_
  obtain ⟨events, hevents, hfiles⟩ := hstart.journal
  obtain ⟨more, hmore, -⟩ := hend.journal
  have hjournal : u.journal = events := hevents.trans (List.append_nil events)
  rw [hfiles]
  refine Origin.bytes_eq_of_agreeAt (Disk.agreeAt_replay (fun path contents hsaved => ?_) disk)
  refine hkeeps path contents ?_
  rw [Host.compilation, hmore, hjournal]
  exact List.mem_append_right more hsaved

/-! ## The whole run -/

theorem inBounds_of_openSource {host : Host} {input : Option String} {reader : Reader}
    (h : host.openSource input = .ok reader) (disk : Disk) : reader.InBounds disk := by
  cases input with
  | none =>
    cases h
    exact Reader.inBounds_start disk _ _
  | some path =>
    rw [Host.openSource] at h
    split at h <;> cases h
    exact Reader.inBounds_start disk _ _

/-- The tool started without a seed, with a script in the file `s` and the file `out` for the
markup. -/
def started (script : String) : Invocation where
  arguments := ["-o", "out", "s"]
  environment := .empty
  input := []
  disk := ⟨Disk.empty.nodes.insert "s" (.file script.toUTF8)⟩
  entropy := 0

/-- A script that opens a deck, includes a file that does not exist, and has a faulty line. -/
def faultyScript : String := "deck\ninclude \"t\"\ncanvas 100\n"

end Tool

end DeckScript
