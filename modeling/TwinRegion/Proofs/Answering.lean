/-
TwinRegion.Proofs.Answering — every callback answers.

SQLite calls back with whatever arguments it has: offsets and sizes are any
signed 64-bit numbers, amounts any signed 32-bit ones, and a name need be no
text. The program that registered the VFS opens blobs on devices of its own
in between, and what happens to the world is nobody's promise (`Event`).

What a registration leads its VFS through is a triple on the VFS
(`Host.ends_onVfs`), so the calm steps of `Faultless` become callbacks that
end with an answer (`Callback.ends_step`), and by induction on the events so
does every callback of a dialog (`Dialog.callbacks_answer`). A length is
answered as a signed number and comes out as the number it is, because no
region gets as long as 2^63 bytes.
-/
import TwinRegion.Proofs.Faultless
import TwinRegion.Proofs.Registration

namespace TwinRegion.Sqlite

open StepM Vfs

/-! ## Callbacks -/

/-- A callback and its arguments. A file goes by its number among those that were opened. -/
inductive Callback where
  | opening (name : NameArg) (flags : Int32) (wantsFlags : Bool)
  | reading (number : Nat) (amount : Int32) (offset : Int64)
  | writing (number : Nat) (data : Bytes) (amount : Int32) (offset : Int64)
  | truncating (number : Nat) (size : Int64)
  | syncing (number : Nat) (flags : Int32)
  | sizing (number : Nat)
  | deleting (name : NameArg)
  | accessing (name : NameArg) (flags : Int32)
  | closing (number : Nat)

/-- What a callback answers. -/
inductive Reply where
  | opened (answer : OpenAnswer)
  | bytes (answer : Code × Option Bytes)
  | done (code : Code)
  | size (answer : Code × Int64)
  | presence (answer : Code × Option Bool)
  /-- No file has the number. -/
  | uncalled

namespace Reply

/-- The file that a callback has opened. -/
def file? : Reply → Option OpenFile
  | opened answer => answer.file
  | _ => none

/-- A length is known, and it is not negative. -/
def Sized : Reply → Prop
  | size answer => answer.1 = .ok ∧ 0 ≤ answer.2
  | _ => True

end Reply

section Stepping

variable [Engine]

/-- Calls back with the file of a number, which may have been closed before. -/
def onFile (files : List OpenFile) (number : Nat) (call : OpenFile → StepM Host Reply) :
    StepM Host Reply :=
  match files[number]? with
  | some file => call file
  | none => return .uncalled

/-- What a callback does, given the files that were opened. -/
def Callback.step (files : List OpenFile) : Callback → StepM Host Reply
  | opening name flags wantsFlags => .opened <$> Host.xOpen name flags wantsFlags
  | reading number amount offset =>
    onFile files number fun file => .bytes <$> Host.xRead file amount offset
  | writing number data amount offset =>
    onFile files number fun file => .done <$> Host.xWrite file data amount offset
  | truncating number size => onFile files number fun file => .done <$> Host.xTruncate file size
  | syncing number flags => onFile files number fun file => .done <$> Host.xSync file flags
  | sizing number => onFile files number fun file => .size <$> Host.xFileSize file
  | deleting name => .done <$> Host.xDelete name
  | accessing name flags => .presence <$> Host.xAccess name flags
  | closing number => onFile files number fun file => .done <$> Host.xClose file

/-! ## Dialogs -/

/-- A process and the files that were opened in it, oldest first. -/
structure Dialog [Engine] where
  host : Host
  files : List OpenFile

/-- What happens in a process. -/
inductive Event where
  | calling (callback : Callback)
  /-- The program opens a region itself, on the device that `openDevice` gives for it. -/
  | placing (path : String) (region : Region) (openDevice : String → StepM World Device)
  | meanwhile (change : World → World)

namespace Dialog

/-- A process in which the VFS was just registered. -/
def start (name : String) (world : World) : Dialog :=
  ⟨{ Host.start world with registered := some ⟨name, 0, .empty⟩, nextSerial := 1 }, []⟩

/-- The process after a step that may have opened a file. -/
def ended (files : List OpenFile) : EStateM.Result Failure Host (Option OpenFile) → Dialog
  | .ok file host => ⟨host, files ++ file.toList⟩
  | .error _ host => ⟨host, files⟩

def after (d : Dialog) : Event → Dialog
  | .calling callback => ended d.files ((Reply.file? <$> callback.step d.files).run d.host)
  | .placing path region openDevice =>
    match d.host.registered with
    | some ⟨_, serial, _⟩ => ended d.files
        ((fun handle => some ⟨serial, handle⟩) <$>
          Host.onVfs serial (openVia path region openDevice) |>.run d.host)
    | none => d
  | .meanwhile change => { d with host := { d.host with world := change d.host.world } }

def run (d : Dialog) (events : List Event) : Dialog := events.foldl after d

/-- A registration under a label that can be listed starts a dialog. -/
theorem run_register_start [PatternLibrary] {settings : Settings} {label : Label}
    {listed : ListedName} (hlabel : settings.label = .ok label)
    (hlisted : ListedName.ofText label.text = .ok listed) (world : World) :
    (Host.register settings).run (Host.start world) = .ok () (start label.text world).host := by
  simp [Host.run_register, hlabel, hlisted, Host.start, start]

end Dialog

/-! ## Steps of the process -/

namespace Host

variable {α : Type} {host : Host} {serial known calls : Nat} {P Q : Vfs → Prop}

/-- The registration of a number lasts, and of its VFS something holds. -/
def Lasting (serial : Nat) (P : Vfs → Prop) (host : Host) : Prop :=
  ∃ registration, host.registered = some registration ∧ registration.serial = serial ∧
    P ⟨registration.registry, host.world⟩

theorem Lasting.mono (h : host.Lasting serial P) (hPQ : ∀ vfs, P vfs → Q vfs) :
    host.Lasting serial Q := by
  obtain ⟨registration, hregistered, hserial, hP⟩ := h
  exact ⟨registration, hregistered, hserial, hPQ _ hP⟩

theorem ends_onVfs {step : StepM Vfs α} {onValue : α → Vfs → Prop}
    {onFailure : Failure → Vfs → Prop} (h : host.Lasting serial P)
    (hstep : ∀ vfs, P vfs → step.Ends vfs onValue onFailure) :
    (onVfs serial step).Ends host (fun a => Lasting serial (onValue a))
      (fun e => Lasting serial (onFailure e)) := by
  obtain ⟨registration, hregistered, rfl, hP⟩ := h
  have hends := hstep _ hP
  have hrun := run_onVfs hregistered step
  cases hresult : step.run ⟨registration.registry, host.world⟩ with
  | ok a vfs =>
    rw [hresult] at hrun
    obtain ⟨hanswer, rfl⟩ := run_eq_ok_iff.mp hresult
    exact .of_run_ok hrun ⟨_, rfl, rfl, hends.value a hanswer⟩
  | error e vfs =>
    rw [hresult] at hrun
    obtain ⟨hanswer, rfl⟩ := run_eq_error_iff.mp hresult
    exact .of_run_error hrun ⟨_, rfl, rfl, hends.failure e hanswer⟩

/-- The registration of a number lasts, with a tame registry. -/
def Tame (serial known calls : Nat) : Host → Prop :=
  Lasting serial fun vfs => vfs.registry.Tame known calls

theorem Tame.later (h : host.Tame serial known calls) : host.Tame serial known (calls + 1) :=
  Lasting.mono h fun _ h => h.later

theorem Tame.max {more : Nat} (h : host.Tame serial known calls)
    (hmore : host.Tame serial more calls) : host.Tame serial (Nat.max known more) calls := by
  obtain ⟨registration, hregistered, hserial, htame⟩ := h
  obtain ⟨other, hother, -, hknown⟩ := hmore
  cases hregistered.symm.trans hother
  exact ⟨registration, hregistered, hserial,
    Nat.max_le.mpr ⟨htame.known_le, hknown.known_le⟩, htame.leads, htame.all⟩

variable {later : Nat} {step : StepM Vfs α} {onValue : α → Vfs → Prop}

/-- A refusal of a calm step is told as a value. -/
theorem ends_attempt (h : host.Tame serial known calls)
    (hstep : ∀ vfs, vfs.registry.Tame known calls → Calm known later onValue step vfs) :
    (StepM.attempt (onVfs serial step)).Ends host
      (fun result host' => host'.Tame serial known later ∧ ∀ a, result = .ok a →
        host'.Lasting serial fun vfs => vfs.registry.Tame known later ∧ onValue a vfs)
      (fun _ _ => False) := by
  refine ((ends_onVfs h hstep).attempt_of_refused ?_).mono ?_ fun _ _ h => h
  · rintro e host' ⟨-, -, -, he, -⟩
    exact he
  · intro result host' hresult
    cases result with
    | ok a =>
      refine ⟨Lasting.mono hresult fun _ h => h.1, fun b hb => ?_⟩
      cases hb
      exact hresult
    | error error => exact ⟨Lasting.mono hresult fun _ h => h.2, fun b hb => by cases hb⟩

theorem ends_current (h : host.Tame serial known calls) :
    current.Ends host
      (fun registration host' => registration.serial = serial ∧ host'.Tame serial known calls)
      (fun _ _ => False) := by
  obtain ⟨registration, hregistered, hserial, htame⟩ := h
  refine .get_bind ?_
  rw [hregistered]
  exact .pure ⟨hserial, registration, hregistered, hserial, htame⟩

/-! ## Callbacks -/

variable {file : OpenFile}

omit [Engine] in
theorem natural_cases (offset : Int64) :
    (∃ error, natural offset = .error error) ∨
      natural offset = .ok offset.toNatClampNeg ∧ offset.toNatClampNeg < 1 <<< 63 := by
  unfold natural
  split
  · exact .inl ⟨_, rfl⟩
  · exact .inr ⟨rfl, offset.toNatClampNeg_lt⟩

omit [Engine] in
theorem byteCount_lt (amount : Int32) : byteCount amount < 1 <<< 31 := amount.toNatClampNeg_lt

theorem ends_answer (h : host.Tame file.serial known calls) (fallback : Code)
    (hstep : ∀ vfs, vfs.registry.Tame known calls → Calm known calls onValue step vfs) :
    (answer file fallback step).Ends host
      (fun _ host' => host'.Tame file.serial known (calls + 1)) (fun _ _ => False) :=
  (ends_attempt h hstep).bind (fun _ _ h => h) fun _ _ hresult => .pure hresult.1.later

theorem ends_xOpen (h : host.Tame serial known calls) (name : NameArg) (flags : Int32)
    (wantsFlags : Bool) :
    (xOpen name flags wantsFlags).Ends host
      (fun answer host' => host'.Tame serial known (calls + 1) ∧ ∀ file, answer.file = some file →
        file.serial = serial ∧ host'.Tame serial (file.handle.blob + 1) (calls + 1))
      (fun _ _ => False) := by
  refine (ends_current h).bind (fun _ _ h => h) fun registration host hcurrent => ?_
  obtain ⟨rfl, h⟩ := hcurrent
  split
  · exact .pure ⟨h.later, fun file hfile => by cases hfile⟩
  · exact .pure ⟨h.later, fun file hfile => by cases hfile⟩
  · rename_i path _
    refine (ends_attempt h fun vfs h => ends_openVia h path (regionOfFlags flags)
      (fun _ he => he) ends_openFile_refusing).bind (fun _ _ h => h) fun result host hresult => ?_
    obtain ⟨h, hopened⟩ := hresult
    cases result with
    | ok handle =>
      refine .pure ⟨h, fun file hfile => ?_⟩
      cases hfile
      exact ⟨rfl, (hopened handle rfl).mono fun _ ⟨h, hknown⟩ => ⟨hknown, h.leads, h.all⟩⟩
    | error error => exact .pure ⟨h, fun file hfile => by cases hfile⟩

theorem ends_xRead (h : host.Tame file.serial known calls) (amount : Int32) (offset : Int64) :
    (xRead file amount offset).Ends host
      (fun _ host' => host'.Tame file.serial known (calls + 1)) (fun _ _ => False) := by
  unfold xRead
  rcases natural_cases offset with ⟨error, herror⟩ | ⟨hnatural, hlt⟩
  · rw [herror]
    exact .pure h.later
  · rw [hnatural]
    have hamount := byteCount_lt amount
    have hlim : offset.toNatClampNeg + byteCount amount + blockSize ≤ Word.limit := by
      unfold Word.limit blockSize
      omega
    refine (ends_attempt h fun vfs h => calm_read h hlim).bind (fun _ _ h => h)
      fun result _ hresult => ?_
    cases result with
    | ok bytes => exact .pure hresult.1.later
    | error error => exact .pure hresult.1.later

theorem ends_xWrite (h : host.Tame file.serial known calls) (data : Bytes) (amount : Int32)
    (offset : Int64) :
    (xWrite file data amount offset).Ends host
      (fun _ host' => host'.Tame file.serial known (calls + 1)) (fun _ _ => False) := by
  unfold xWrite
  rcases natural_cases offset with ⟨error, herror⟩ | ⟨hnatural, hlt⟩
  · rw [herror]
    exact .pure h.later
  · rw [hnatural]
    have hamount := byteCount_lt amount
    have hdata : (data.extract 0 (byteCount amount)).size < 1 <<< 31 := by
      rw [Array.size_extract]
      omega
    exact ends_answer h _ fun vfs h => calm_write h hlt hdata

theorem ends_xTruncate (h : host.Tame file.serial known calls) (size : Int64) :
    (xTruncate file size).Ends host
      (fun _ host' => host'.Tame file.serial known (calls + 1)) (fun _ _ => False) := by
  unfold xTruncate
  rcases natural_cases size with ⟨error, herror⟩ | ⟨hnatural, -⟩
  · rw [herror]
    exact .pure h.later
  · rw [hnatural]
    exact ends_answer h _ fun vfs h => calm_truncate h _

/-- The length of a file with a record is a number that a signed one can be. -/
theorem ends_xFileSize (h : host.Tame file.serial known calls) (hknown : file.handle.blob < known) :
    (xFileSize file).Ends host
      (fun answer host' => host'.Tame file.serial known (calls + 1) ∧ answer.1 = .ok ∧ 0 ≤ answer.2)
      (fun _ _ => False) := by
  have hsize : ∀ vfs : Vfs, vfs.registry.Tame known calls →
      (regionSize file.handle).Ends vfs
        (fun size vfs' => vfs'.registry.Tame known calls ∧ size < 1 <<< 63) (fun _ _ => False) := by
    intro vfs h
    obtain ⟨record, hrecord⟩ :=
      Registry.exists_record_of_lt (Nat.lt_of_lt_of_le hknown h.known_le)
    have hrun : (regionSize file.handle).run vfs =
        .ok (record.partition.regionSize file.handle.region) vfs := by
      simp [regionSize, Vfs.partition, Vfs.record, hrecord]
    exact .of_run_ok hrun ⟨h, (h.all _ record hrecord).1.regionSize_lt _⟩
  refine (ends_onVfs h hsize).bind ?_ fun size host hsize => ?_
  · rintro e host' ⟨-, -, -, hfalse⟩
    exact hfalse
  · have htame : host.Tame file.serial known calls := Lasting.mono hsize fun _ h => h.1
    obtain ⟨-, -, -, -, hlt⟩ := hsize
    refine .pure ⟨htame.later, rfl, ?_⟩
    rw [Int64.le_iff_toInt_le, Int64.toInt_ofNat_of_lt hlt]
    exact Int.natCast_nonneg size

theorem ends_xDelete (h : host.Tame serial known calls) (name : NameArg) :
    (xDelete name).Ends host (fun _ host' => host'.Tame serial known (calls + 1))
      (fun _ _ => False) := by
  refine (ends_current h).bind (fun _ _ h => h) fun registration host hcurrent => ?_
  obtain ⟨rfl, h⟩ := hcurrent
  split
  · exact .pure h.later
  · exact (ends_attempt h fun vfs h => calm_remove h _).bind (fun _ _ h => h)
      fun _ _ hresult => .pure hresult.1.later

theorem ends_xAccess (h : host.Tame serial known calls) (name : NameArg) (flags : Int32) :
    (xAccess name flags).Ends host (fun _ host' => host'.Tame serial known (calls + 1))
      (fun _ _ => False) := by
  refine (ends_current h).bind (fun _ _ h => h) fun registration host hcurrent => ?_
  refine .ite (fun _ => .get_bind (.pure hcurrent.2.later)) fun _ => ?_
  split
  · exact .pure hcurrent.2.later
  · exact .get_bind (.pure hcurrent.2.later)

end Host

/-! ## Dialogs that go on -/

variable {host : Host} {serial known calls : Nat} {files : List OpenFile}

/-- The files were opened through the registration of a number and are on its first `known` records. -/
def Known (serial known : Nat) (files : List OpenFile) : Prop :=
  ∀ file ∈ files, file.serial = serial ∧ file.handle.blob < known

/-- After one more call the registry is tame, and it has the record of the file that was opened. -/
def Settled (serial known calls : Nat) (file? : Option OpenFile) (host : Host) : Prop :=
  host.Tame serial known (calls + 1) ∧ ∀ file, file? = some file →
    file.serial = serial ∧ host.Tame serial (file.handle.blob + 1) (calls + 1)

theorem settled_none (h : host.Tame serial known (calls + 1)) :
    Settled serial known calls none host := ⟨h, fun _ hfile => by cases hfile⟩

/-- Of a callback of a file there is only to show what it does on a file that there is, and such a
callback opens none. -/
theorem ends_onFile {call : OpenFile → StepM Host Reply} (h : host.Tame serial known calls)
    (hfiles : Known serial known files) (number : Nat)
    (hcall : ∀ file, host.Tame file.serial known calls → file.handle.blob < known →
      (call file).Ends host
        (fun reply host' => host'.Tame file.serial known (calls + 1) ∧ reply.file? = none ∧ reply.Sized)
        (fun _ _ => False)) :
    (onFile files number call).Ends host
      (fun reply host' => Settled serial known calls reply.file? host' ∧ reply.Sized)
      (fun _ _ => False) := by
  unfold onFile
  split
  · rename_i file hfile
    obtain ⟨rfl, hknown⟩ := hfiles file (List.mem_of_getElem? hfile)
    refine (hcall file h hknown).mono ?_ fun _ _ h => h
    rintro reply host' ⟨h, hnone, hsized⟩
    exact ⟨hnone ▸ settled_none h, hsized⟩
  · exact .pure ⟨settled_none h.later, trivial⟩

/-- A callback ends with an answer, whatever its arguments are. -/
theorem Callback.ends_step (h : host.Tame serial known calls) (hfiles : Known serial known files)
    (callback : Callback) :
    (callback.step files).Ends host
      (fun reply host' => Settled serial known calls reply.file? host' ∧ reply.Sized)
      (fun _ _ => False) := by
  cases callback with
  | opening name flags wantsFlags =>
    exact (Host.ends_xOpen h name flags wantsFlags).map fun _ _ hanswer => ⟨hanswer, trivial⟩
  | reading number amount offset =>
    exact ends_onFile h hfiles number fun file h _ =>
      (Host.ends_xRead h amount offset).map fun _ _ h => ⟨h, rfl, trivial⟩
  | writing number data amount offset =>
    exact ends_onFile h hfiles number fun file h _ =>
      (Host.ends_xWrite h data amount offset).map fun _ _ h => ⟨h, rfl, trivial⟩
  | truncating number size =>
    exact ends_onFile h hfiles number fun file h _ =>
      (Host.ends_xTruncate h size).map fun _ _ h => ⟨h, rfl, trivial⟩
  | syncing number flags =>
    exact ends_onFile h hfiles number fun file h _ =>
      (Host.ends_answer h _ fun vfs h => calm_sync h flags).map fun _ _ h => ⟨h, rfl, trivial⟩
  | sizing number =>
    exact ends_onFile h hfiles number fun file h hknown =>
      (Host.ends_xFileSize h hknown).map fun _ _ ⟨h, hsized⟩ => ⟨h, rfl, hsized⟩
  | deleting name =>
    exact (Host.ends_xDelete h name).map fun _ _ h => ⟨settled_none h, trivial⟩
  | accessing name flags =>
    exact (Host.ends_xAccess h name flags).map fun _ _ h => ⟨settled_none h, trivial⟩
  | closing number =>
    exact ends_onFile h hfiles number fun file h _ =>
      (Host.ends_answer h _ fun vfs h => calm_close h).map fun _ _ h => ⟨h, rfl, trivial⟩

namespace Dialog

variable {d : Dialog}

/-- The registration of a number lasts with a tame registry, and all files were opened through it. -/
def Tame (serial calls : Nat) (d : Dialog) : Prop :=
  ∃ known, d.host.Tame serial known calls ∧ Known serial known d.files

theorem tame_start (name : String) (world : World) : (start name world).Tame 0 0 :=
  ⟨0, ⟨_, rfl, rfl, Registry.tame_empty⟩, fun _ hfile => by cases hfile⟩

/-- A step keeps a dialog tame, whether it opens a file, opens none or fails. -/
theorem tame_ended {step : StepM Host (Option OpenFile)} (hfiles : Known serial known d.files)
    (hstep : step.Ends d.host (Settled serial known calls)
      fun _ host' => host'.Tame serial known (calls + 1)) :
    (ended d.files (step.run d.host)).Tame serial (calls + 1) := by
  cases hrun : step.run d.host with
  | error e host =>
    obtain ⟨hanswer, rfl⟩ := run_eq_error_iff.mp hrun
    exact ⟨known, hstep.failure e hanswer, hfiles⟩
  | ok file? host =>
    obtain ⟨hanswer, rfl⟩ := run_eq_ok_iff.mp hrun
    obtain ⟨h, hopened⟩ := hstep.value file? hanswer
    cases file? with
    | none => exact ⟨known, h, by simpa [ended] using hfiles⟩
    | some file =>
      obtain ⟨hserial, hnew⟩ := hopened file rfl
      refine ⟨max known (file.handle.blob + 1), h.max hnew, fun other hother => ?_⟩
      rcases List.mem_append.mp hother with hold | hnew
      · obtain ⟨hserial, hlt⟩ := hfiles other hold
        exact ⟨hserial, Nat.lt_of_lt_of_le hlt (Nat.le_max_left ..)⟩
      · obtain rfl := List.mem_singleton.mp hnew
        exact ⟨hserial, Nat.lt_of_lt_of_le (Nat.lt_succ_self _) (Nat.le_max_right ..)⟩

theorem tame_after (h : d.Tame serial calls) (event : Event) :
    (d.after event).Tame serial (calls + 1) := by
  obtain ⟨known, h, hfiles⟩ := h
  cases event with
  | calling callback =>
    exact tame_ended hfiles (((callback.ends_step h hfiles).map fun _ _ hreply => hreply.1).mono
      (fun _ _ h => h) fun _ _ h => h.elim)
  | placing path region openDevice =>
    obtain ⟨registration, hregistered, rfl, htame⟩ := id h
    rw [after, hregistered]
    refine tame_ended hfiles (((Host.ends_onVfs h fun vfs h => ends_openVia h path region
      (fun _ _ => trivial) fun _ _ => .any).map fun handle host hopened => ?_).mono
        (fun _ _ h => h) fun e host hfailed => ?_)
    · refine ⟨hopened.mono fun _ h => h.1, fun file hfile => ?_⟩
      cases hfile
      exact ⟨rfl, hopened.mono fun _ ⟨h, hknown⟩ => ⟨hknown, h.leads, h.all⟩⟩
    · exact hfailed.mono fun _ h => h.2
  | meanwhile change =>
    obtain ⟨registration, hregistered, hserial, htame⟩ := h
    exact ⟨known, ⟨registration, hregistered, hserial, htame.later⟩, hfiles⟩

theorem tame_run (h : d.Tame serial calls) (events : List Event) :
    (d.run events).Tame serial (calls + events.length) := by
  induction events generalizing d calls with
  | nil => exact h
  | cons event rest ih =>
    rw [List.length_cons, Nat.add_comm rest.length, ← Nat.add_assoc]
    exact ih (tame_after h event)

/-- After any events in a process with a registration, every callback ends with an answer, whatever
its arguments are, and a length that it answers with is not negative. Every partition is tame, and
no record has more references than there were events. -/
theorem callbacks_answer (name : String) (world : World) (events : List Event) :
    let d := (start name world).run events
    (∀ callback : Callback, ∃ reply host,
      (callback.step d.files).run d.host = .ok reply host ∧ reply.Sized) ∧
    ∃ registration, d.host.registered = some registration ∧
      registration.registry.All fun record =>
        record.partition.Tame ∧ record.refs ≤ events.length := by
  intro d
  obtain ⟨known, h, hfiles⟩ := tame_run (tame_start name world) events
  constructor
  · intro callback
    obtain ⟨reply, hrun, -, hsized⟩ := (callback.ends_step h hfiles).exists_value
    exact ⟨reply, _, hrun, hsized⟩
  · obtain ⟨registration, hregistered, -, htame⟩ := h
    exact ⟨registration, hregistered, by simpa using htame.all⟩

end Dialog

end Stepping

/-- A blob that a callback has opened is written to, and another callback tells its length. -/
theorem Dialog.callbacks_answer_opened :
    let d := (Dialog.start "twin" .initial).run
      [.calling (.opening (some "a") openMainDatabase false), .calling (.writing 0 #[1] 1 0)]
    d.files.length = 1 ∧ ∃ answer host,
      ((Callback.sizing 0).step d.files).run d.host = .ok (.size answer) host ∧
        answer.1 = .ok ∧ 0 ≤ answer.2 := by
  intro d
  have hfiles : d.files.length = 1 := by decide +kernel
  obtain ⟨file, hfile⟩ := List.length_eq_one_iff.mp hfiles
  obtain ⟨reply, host, hrun, hsized⟩ := (Dialog.callbacks_answer "twin" .initial _).1 (.sizing 0)
  have hstep : (Callback.sizing 0).step d.files = .size <$> Host.xFileSize file := by
    rw [hfile]
    rfl
  refine ⟨hfiles, ?_⟩
  rw [hstep] at hrun ⊢
  rw [run_map] at hrun ⊢
  cases hlength : (Host.xFileSize file).run d.host with
  | error e host => cases (hlength ▸ hrun)
  | ok answer host =>
    rw [hlength] at hrun
    cases hrun
    exact ⟨answer, host, rfl, hsized⟩

end TwinRegion.Sqlite
