import CompiledScript.Proofs.Outcomes
import CompiledScript.Proofs.Script.SessionSteps

/-!
# Loading a script twice

Two sessions over the same bytes end alike when the script is loaded, whatever has been decoded in
them before and wherever their readers stand. Each part of loading goes to an offset before it
reads, and stores what it finds before a later part looks at it. So the sessions agree about more
and more: about the place of the reader and the header at first, then about one table after another,
and about everything in the end.
-/

namespace CompiledScript

namespace Reader

/-- The readers have the same buffer and read it in the same order. -/
def SameBuffer (r r' : Reader) : Prop :=
  r.contents = r'.contents ∧ r.order = r'.order

/-- A move does not depend on the position in front of it. -/
theorem runsAlike_seek (offset : Int) : RunsAlike SameBuffer Eq (seek offset) := by
  rintro r r' ⟨hcontents, horder⟩
  cases hdata : r'.contents with
  | none =>
    have hclosed (reader : Reader) (h : reader.contents = none) :
        seek offset reader = .error Fault.closed reader := by
      simp [seek, length, buffer, h, bind, EStateM.bind]
    rw [hclosed r (hcontents.trans hdata), hclosed r' hdata]
    exact .error Fault.closed r r'
  | some data =>
    rw [seek_of_contents (hcontents.trans hdata), seek_of_contents hdata]
    split
    · refine .ok () ?_
      rw [hcontents, horder]
    · exact .error _ r r'

end Reader

namespace Session

variable {ν : Type}

/-! ## What sessions agree about -/

/-- What a session reads, for which game, and which names it gives. -/
def source (s : Session ν) : Option ByteArray × ByteOrder × Game × (Symbol → ν) :=
  (s.reader.contents, s.reader.order, s.script.game, s.names)

/-- The sessions read the same bytes for the same game with the same names. -/
def SameSource (s t : Session ν) : Prop :=
  s.source = t.source

abbrev Decoded (ν : Type) := Script ν × StringIndex

/-- The readers stand at the same place of the same bytes, hashes get the same names, and what was
decoded looks the same in a view of it. -/
structure Agree {β : Type} (view : Decoded ν → β) (s t : Session ν) : Prop where
  names : s.names = t.names
  reader : s.reader = t.reader
  seen : view (s.script, s.index) = view (t.script, t.index)

section Steps

variable {α β γ : Type} {view : Decoded ν → β} {wider : Decoded ν → γ}

theorem runsAlike_reading (action : Reader.Action α) :
    RunsAlike (Agree view) (Agree view) (reading action) := by
  intro s t hst
  unfold reading
  rw [hst.reader]
  cases action t.reader with
  | ok value r => exact .ok value ⟨hst.names, rfl, hst.seen⟩
  | error fault r => exact .error fault _ _

theorem runsAlike_update {change : Script ν → Script ν}
    (h : ∀ x y : Decoded ν, view x = view y → wider (change x.1, x.2) = wider (change y.1, y.2)) :
    RunsAlike (Agree view) (Agree wider) (update change) :=
  runsAlike_modify fun _ _ hst ↦ ⟨hst.names, hst.reader, h _ _ hst.seen⟩

theorem runsAlike_report (event : ScriptEvent ν) :
    RunsAlike (Agree view) (Agree view) (report event) :=
  runsAlike_modify fun _ _ hst ↦ ⟨hst.names, hst.reader, hst.seen⟩

theorem runsAlike_header (h : ∀ x y : Decoded ν, view x = view y → x.1.header = y.1.header) :
    RunsAlike (Agree view) (Agree view) header := by
  refine runsAlike_get_bind (fun s t hst ↦ ?_) fun _ ↦ runsAlike_pure _
  rw [h _ _ hst.seen]

theorem runsAlike_times {step : Action ν Unit} (hstep : RunsAlike (Agree view) (Agree view) step)
    (count : Nat) : RunsAlike (Agree view) (Agree view) (times count step) := by
  induction count with
  | zero => exact runsAlike_pure ()
  | succ count ih => exact hstep.bind fun _ ↦ ih

end Steps

/-! ## Parts of loading -/

/-- The game, the header and the path. -/
def headed (seen : Decoded ν) : Game × Header × String :=
  (seen.1.game, seen.1.header, seen.1.path)

/-- The included scripts as well. -/
def included (seen : Decoded ν) : (Game × Header × String) × List String :=
  (headed seen, seen.1.includes)

/-- The string table as well. -/
def listed (seen : Decoded ν) : ((Game × Header × String) × List String) × Array StringEntry :=
  (included seen, seen.1.strings)

/-- The index of the texts and the import table as well. -/
def imported (seen : Decoded ν) :
    (((Game × Header × String) × List String) × Array StringEntry) × StringIndex ×
      Array (Import ν) :=
  (listed seen, seen.2, seen.1.imports)

theorem runsAlike_loadHeader : RunsAlike SameSource (Agree headed) (loadHeader (ν := ν)) := by
  have hread : RunsAlike SameSource (Agree fun seen ↦ seen.1.game)
      (reading (ν := ν) readHeader) := by
    intro s t hst
    obtain ⟨hcontents, hrest⟩ := Prod.ext_iff.1 hst
    obtain ⟨horder, hrest⟩ := Prod.ext_iff.1 hrest
    obtain ⟨hgame, hnames⟩ := Prod.ext_iff.1 hrest
    have hreaders : EndsAlike Eq (readHeader s.reader) (readHeader t.reader) :=
      ((Reader.runsAlike_seek 8).bind fun _ ↦ runsAlike_eq _) _ _ ⟨hcontents, horder⟩
    unfold reading
    generalize readHeader s.reader = first at hreaders
    generalize readHeader t.reader = second at hreaders
    cases hreaders with
    | error fault r r' => exact .error fault _ _
    | ok value hsame => exact .ok value ⟨hnames, hsame, hgame⟩
  have hheader (header : Header) : RunsAlike (Agree fun seen ↦ seen.1.game)
      (Agree fun seen ↦ (seen.1.game, seen.1.header))
      (update (ν := ν) ({ · with header := header })) :=
    runsAlike_update fun _ _ h ↦ Prod.ext h rfl
  refine hread.bind fun header ↦ (hheader header).bind fun _ ↦ (runsAlike_reading _).bind fun path ↦
    (runsAlike_update fun x y h ↦ ?_).bind fun _ ↦ runsAlike_reading _
  simp_all [headed]

theorem runsAlike_loadIncludes :
    RunsAlike (Agree headed) (Agree included) (loadIncludes (ν := ν)) := by
  refine (runsAlike_header ?_).bind fun _ ↦ (runsAlike_reading _).bind fun _ ↦
    (runsAlike_reading _).bind fun _ ↦ runsAlike_update ?_
  · intro x y h
    simp_all [headed]
  · intro x y h
    simp_all [headed, included]

theorem runsAlike_loadStrings :
    RunsAlike (Agree included) (Agree listed) (loadStrings (ν := ν)) := by
  have hentry (action : Reader.Action StringEntry) :
      RunsAlike (Agree listed) (Agree listed) (loadString (ν := ν) action) := by
    refine (runsAlike_reading _).bind fun _ ↦ runsAlike_update ?_
    intro x y h
    simp_all [headed, included, listed]
  refine (runsAlike_update ?_).bind fun _ ↦ (runsAlike_header ?_).bind fun _ ↦
    (runsAlike_reading _).bind fun _ ↦ (runsAlike_times (hentry _) _).bind fun _ ↦
      (runsAlike_reading _).bind fun _ ↦ runsAlike_times (hentry _) _
  · intro x y h
    simp_all [headed, included, listed]
  · intro x y h
    simp_all [headed, included, listed]

/-- The index is made anew from the string table. -/
theorem runsAlike_indexStrings :
    RunsAlike (Agree listed) (Agree fun seen ↦ (listed seen, seen.2))
      (indexStrings (ν := ν)) := by
  refine runsAlike_modify fun s t hst ↦ ⟨hst.names, hst.reader, Prod.ext hst.seen ?_⟩
  exact congrArg indexOf (congrArg Prod.snd hst.seen)

theorem runsAlike_loadImport :
    RunsAlike (Agree imported) (Agree imported) (loadImport (ν := ν)) := by
  refine runsAlike_get_bind (fun s t hst ↦ ?_) fun _ ↦
    (runsAlike_reading _).bind fun _ ↦ runsAlike_update fun x y h ↦ ?_
  · rw [hst.names]
  · simp_all [headed, included, listed, imported]

theorem runsAlike_loadImports :
    RunsAlike (Agree fun seen ↦ (listed seen, seen.2)) (Agree imported)
      (loadImports (ν := ν)) := by
  refine (runsAlike_update ?_).bind fun _ ↦ (runsAlike_header ?_).bind fun _ ↦
    (runsAlike_reading _).bind fun _ ↦ runsAlike_times runsAlike_loadImport _
  all_goals
    intro x y h
    simp_all [headed, included, listed, imported]

variable [ToString ν]

theorem runsAlike_loadExport : RunsAlike (Agree id) (Agree id) (loadExport (ν := ν)) := by
  refine runsAlike_get_bind (fun s t hst ↦ ?_) fun _ ↦ (runsAlike_reading _).bind fun entry ↦
    runsAlike_get_bind (fun s t hst ↦ ?_) fun before ↦ (runsAlike_reading _).bind fun size ↦
      runsAlike_get_bind (fun s t hst ↦ ?_) fun found ↦ (runsAlike_reading _).bind fun _ ↦
        (runsAlike_report _).bind fun _ ↦ (runsAlike_reading _).bind fun _ ↦
          runsAlike_update fun x y h ↦ ?_
  · rw [hst.names]
  · rw [hst.reader]
  · rw [hst.names, show s.index = t.index from congrArg Prod.snd hst.seen]
  · rw [show x = y from h]

/-- With the export table, the sessions agree about all that was decoded. -/
theorem runsAlike_loadExports : RunsAlike (Agree imported) (Agree id) (loadExports (ν := ν)) := by
  refine (runsAlike_update fun x y h ↦ ?_).bind fun _ ↦
    (runsAlike_header fun x y h ↦ ?_).bind fun _ ↦
      (runsAlike_reading _).bind fun _ ↦ runsAlike_times runsAlike_loadExport _
  · simp_all [headed, included, listed, imported]
  · rw [show x = y from h]

theorem runsAlike_load : RunsAlike SameSource (Agree id) (load (ν := ν)) := by
  refine runsAlike_loadHeader.bind fun _ ↦ runsAlike_loadIncludes.bind fun _ ↦
    runsAlike_loadStrings.bind fun _ ↦ runsAlike_indexStrings.bind fun _ ↦
      runsAlike_loadImports.bind fun _ ↦ runsAlike_loadExports.bind fun _ ↦
        runsAlike_get_bind (fun s t hst ↦ ?_) fun _ ↦ runsAlike_report _
  rw [show s.script = t.script from congrArg Prod.fst hst.seen]

end Session
end CompiledScript
