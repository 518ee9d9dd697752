import CompiledScript.Proofs.Reader.Reads
import CompiledScript.Proofs.Script.SessionSteps

/-!
# Runs of a session

What a session does when nothing goes wrong, as total triples: from every session with one property,
a step yields a known value and leads to a session with another property. The properties say where
the reader stands and what has been decoded; what was reported does not matter. A table is followed
record by record, and one lemma serves all tables.
-/

namespace CompiledScript.Session

open Bytes Number Reader

section Carries

variable {ν α β : Type} {before middle after : Session ν → Prop}

/-- From every session with the first property the step yields the value and leads to one with the
second property. -/
def Carries (before : Session ν → Prop) (step : Action ν α) (value : α)
    (after : Session ν → Prop) : Prop :=
  ∀ s, before s → ∃ s', step s = .ok value s' ∧ after s'

theorem Carries.bind {step : Action ν α} {f : α → Action ν β} {a : α} {b : β}
    (hstep : Carries before step a middle) (hf : Carries middle (f a) b after) :
    Carries before (step >>= f) b after := by
  intro s hs
  obtain ⟨s₁, hfirst, hs₁⟩ := hstep s hs
  obtain ⟨s₂, hsecond, hs₂⟩ := hf s₁ hs₁
  exact ⟨s₂, bind_eq_ok.2 ⟨a, s₁, hfirst, hsecond⟩, hs₂⟩

theorem Carries.get_bind {f : Session ν → Action ν β} {b : β}
    (hf : ∀ s, before s → Carries before (f s) b after) : Carries before (get >>= f) b after := by
  intro s hs
  obtain ⟨s', hstep, hs'⟩ := hf s hs s hs
  exact ⟨s', bind_eq_ok.2 ⟨s, s, rfl, hstep⟩, hs'⟩

end Carries

variable {ν : Type}

/-- The session stands at an offset of the bytes, with the given names, script and index. -/
structure At (names : Symbol → ν) (data : ByteArray) (offset : Int) (script : Script ν)
    (index : StringIndex) (s : Session ν) : Prop where
  names : s.names = names
  reader : s.reader = readerAt data offset
  script : s.script = script
  index : s.index = index

variable {α : Type} {names : Symbol → ν} {data : ByteArray} {offset stop : Int}
  {script : Script ν} {index : StringIndex} {run : List UInt8}

theorem carries_reading {action : Reader.Action α} {value : α}
    (h : action (readerAt data offset) = .ok value (readerAt data stop)) :
    Carries (At names data offset script index) (reading action) value
      (At names data stop script index) := by
  intro s hs
  rw [← hs.reader] at h
  exact ⟨_, reading_eq_ok.2 ⟨_, h, rfl⟩, hs.names, rfl, hs.script, hs.index⟩

theorem carries_seek (h : Holds data stop run) :
    Carries (At names data offset script index) (reading (seek stop)) ()
      (At names data stop script index) :=
  carries_reading (seek_of_holds h)

theorem carries_update (change : Script ν → Script ν) :
    Carries (At names data offset script index) (update change) ()
      (At names data offset (change script) index) := by
  intro s hs
  refine ⟨_, update_eq_ok.2 rfl, hs.names, hs.reader, ?_, hs.index⟩
  exact congrArg change hs.script

theorem carries_report (event : ScriptEvent ν) :
    Carries (At names data offset script index) (report event) ()
      (At names data offset script index) := by
  intro s hs
  exact ⟨_, report_eq_ok.2 rfl, hs.names, hs.reader, hs.script, hs.index⟩

theorem carries_header (known : Header) (hknown : script.header = known) :
    Carries (At names data offset script index) header known
      (At names data offset script index) := by
  intro s hs
  refine ⟨s, header_eq_ok.2 ⟨?_, rfl⟩, hs⟩
  rw [hs.script, hknown]

theorem carries_indexStrings :
    Carries (At names data offset script index) indexStrings ()
      (At names data offset script (indexOf script.strings)) := by
  intro s hs
  refine ⟨_, rfl, hs.names, hs.reader, hs.script, ?_⟩
  exact congrArg (indexOf ·.strings) hs.script

/-- A step that loads one record, done once for each record of a table, loads the table. The script
is followed by the records that are loaded so far. -/
theorem carries_times {ι : Type} {step : Action ν Unit} (code : ι → List UInt8)
    (script : List ι → Script ν) (done : List ι) {entries : List ι}
    (hstep : ∀ entry ∈ entries, ∀ done offset, Holds data offset (code entry) →
      Carries (At names data offset (script done) index) step ()
        (At names data (offset + (code entry).length) (script (done ++ [entry])) index))
    (hheld : Holds data offset (entries.flatMap code)) :
    Carries (At names data offset (script done) index) (times entries.length step) ()
      (At names data (offset + (entries.flatMap code).length) (script (done ++ entries))
        index) := by
  induction entries generalizing offset done with
  | nil =>
    intro s hs
    refine ⟨s, rfl, ?_⟩
    simpa using hs
  | cons entry rest ih =>
    rw [List.flatMap_cons] at hheld ⊢
    have hfirst := hstep entry List.mem_cons_self done offset hheld.left
    have hstop : offset + (code entry ++ rest.flatMap code).length =
        offset + (code entry).length + (rest.flatMap code).length := by
      rw [List.length_append]
      push_cast
      omega
    rw [hstop, List.append_cons]
    apply hfirst.bind
    exact ih _ (fun other hother ↦ hstep other (List.mem_cons_of_mem _ hother)) hheld.right

end CompiledScript.Session
