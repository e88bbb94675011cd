/-
TwinRegion.Proofs.Direct — a callback does what direct use of the VFS does.

A program can use the VFS itself, with natural offsets and with texts for
names; SQLite comes to it through the callbacks. Each callback asks the VFS
for one operation, or for nothing if its argument makes no sense
(`Callback.ask?`). So a process and a program to which the same things
happen go through the same states (`Dialog.Mirrors`), and every reply of the
process can be told from the answer of the operation: its code is
`Code.ok` exactly if that has a value, and otherwise the code of the error
(`Dialog.callbacks_mirror_program`).
-/
import TwinRegion.Proofs.Answering

namespace TwinRegion.Sqlite

open StepM Vfs

/-! ## Operations -/

/-- What an operation of the VFS finds. -/
inductive Finding where
  | handle (handle : Handle)
  | bytes (bytes : Bytes)
  | size (size : Nat)
  | presence (there : Bool)
  /-- What the file system below answers. -/
  | below (answer : Code × Option Bool)
  | nothing

namespace Finding

def handle? : Finding → Option Handle
  | handle given => some given
  | _ => none

/-- The code that goes with what was found. Only the file system below may have another one than
that of success. -/
def code : Finding → Code
  | below answer => answer.1
  | _ => .ok

end Finding

/-- The natural number that a signed one is, unless it is negative. -/
def offset? (n : Int64) : Option Nat := if 0 ≤ n.toInt then some n.toInt.toNat else none

/-- What a question about a path is answered with. Only the question whether there is such a path
is the VFS's own, and it needs a path that is a text. -/
def look? [Engine] (name : NameArg) (flags : Int32) : Option (Vfs → Finding) :=
  if flags = accessExists then name.text?.map fun path vfs => .presence (present vfs path)
  else some fun vfs => .below (Engine.access vfs.world.files name flags)

namespace Callback

/-- The operation of the VFS that a callback asks for, given the handles of the files that were
opened. It asks for none if its file is not there, its offset or size is negative, or its name is
missing or no text. -/
def ask? [Engine] (handles : List Handle) : Callback → Option (StepM Vfs Finding)
  | opening name flags _ => do
    let path ← name.text?
    return .handle <$> openPath path (regionOfFlags flags)
  | reading number amount offset => do
    let handle ← handles[number]?
    let offset ← offset? offset
    return .bytes <$> Vfs.read handle offset (max amount.toInt 0).toNat
  | writing number data amount offset => do
    let handle ← handles[number]?
    let offset ← offset? offset
    return (fun _ => .nothing) <$>
      Vfs.write handle offset (data.extract 0 (max amount.toInt 0).toNat)
  | truncating number size => do
    let handle ← handles[number]?
    let size ← offset? size
    return (fun _ => .nothing) <$> Vfs.truncate handle size
  | syncing number flags => do
    let handle ← handles[number]?
    return (fun _ => .nothing) <$> Vfs.sync handle flags
  | sizing number => do
    let handle ← handles[number]?
    return .size <$> regionSize handle
  | deleting name => do
    let path ← name.text?
    return (fun _ => .nothing) <$> Vfs.remove path
  | accessing name flags => do
    let look ← look? name flags
    return look <$> get
  | closing number => do
    let handle ← handles[number]?
    return (fun _ => .nothing) <$> Vfs.close handle

/-- The code of a callback that fails, where the error has none of its own. -/
def fallback : Callback → Code
  | opening .. | sizing .. => .ioError
  | reading .. => .ioRead
  | writing .. => .ioWrite
  | truncating .. => .ioTruncate
  | syncing .. => .ioSync
  | deleting .. => .ioDelete
  | accessing .. => .ioAccess
  | closing .. => .ioClose

/-- The length of the buffer that a callback fills. -/
def room? : Callback → Option Nat
  | reading _ amount _ => some (max amount.toInt 0).toNat
  | _ => none

/-- The file of the callback, if it has one, is among the first `count` that were opened. -/
def Made (count : Nat) : Callback → Prop
  | opening .. | deleting .. | accessing .. => True
  | reading number .. | writing number .. | truncating number .. | syncing number .. |
    sizing number | closing number => number < count

end Callback

namespace Reply

def code? : Reply → Option Code
  | opened answer => some answer.code
  | bytes answer => some answer.1
  | done code => some code
  | size answer => some answer.1
  | presence answer => some answer.1
  | uncalled => none

/-- The reply passes on what was found. A file that was opened keeps the number of its registration. -/
def Tells (serial : Nat) : Reply → Finding → Prop
  | .opened answer, .handle given => answer.file = some ⟨serial, given⟩
  | .bytes answer, .bytes data => answer.2 = some data
  | .done _, .nothing => True
  | .size answer, .size length => answer.2.toInt = length
  | .presence answer, .presence there => answer.2 = some there
  | .presence answer, .below passed => answer = passed
  | _, _ => False

end Reply

/-- The reply to a callback fits what the operation that it asked for has answered. -/
def Callback.Agrees (serial : Nat) (callback : Callback) (reply : Reply) :
    Except Failure Finding → Prop
  | .ok finding => reply.code? = some finding.code ∧ reply.Tells serial finding
  | .error (.refused error) =>
    reply.code? = some (codeOf callback.fallback error) ∧ codeOf callback.fallback error ≠ .ok ∧
      reply.file? = none ∧
      ∀ room, callback.room? = some room → error.isPastEnd = true →
        reply = .bytes (.shortRead, some (Bytes.zeros room))
  | .error (.fault _) => False

/-! ## Programs -/

/-- A program that uses the VFS itself, and the handles that it was given, oldest first. -/
structure Program where
  vfs : Vfs
  handles : List Handle

namespace Program

def start (world : World) : Program := ⟨⟨.empty, world⟩, []⟩

/-- The program after an operation that may have given it a handle. -/
def ended (handles : List Handle) : EStateM.Result Failure Vfs Finding → Program
  | .ok finding vfs => ⟨vfs, handles ++ finding.handle?.toList⟩
  | .error _ vfs => ⟨vfs, handles⟩

/-- A program to which happens what happens in a process. -/
def after [Engine] (p : Program) : Event → Program
  | .calling callback =>
    match callback.ask? p.handles with
    | some operation => ended p.handles (operation.run p.vfs)
    | none => p
  | .placing path region openDevice =>
    ended p.handles ((.handle <$> openVia path region openDevice).run p.vfs)
  | .meanwhile change => { p with vfs := { p.vfs with world := change p.vfs.world } }

def run [Engine] (p : Program) (events : List Event) : Program := events.foldl after p

end Program

/-- The process is where the program is, through the registration of a number. -/
structure Dialog.Mirrors [Engine] (serial : Nat) (d : Dialog) (p : Program) : Prop where
  vfs_eq : d.host.Lasting serial (· = p.vfs)
  files_eq : d.files = p.handles.map (OpenFile.mk serial)

/-! ## Arguments and codes -/

theorem natural_eq (n : Int64) :
    natural n = match offset? n with
      | some offset => .ok offset
      | none => .error (.negativeOffset n.toInt) := by
  unfold natural offset?
  by_cases h : n < 0
  · have hneg : n.toInt < 0 := Int64.lt_iff_toInt_lt.mp h
    rw [if_pos h, if_neg (Int.not_le.mpr hneg)]
  · have hnonneg : 0 ≤ n.toInt := Int.not_lt.mp fun hneg => h (Int64.lt_iff_toInt_lt.mpr hneg)
    rw [if_neg h, if_pos hnonneg]
    rfl

theorem byteCount_eq (amount : Int32) : byteCount amount = (max amount.toInt 0).toNat := by
  rw [byteCount, Int32.toNatClampNeg]
  omega

/-- No error is told as a success. -/
theorem codeOf_ne_ok {fallback : Code} (h : fallback ≠ .ok) (error : Error) :
    codeOf fallback error ≠ .ok := by
  cases error <;> simp only [codeOf] <;> first | exact h | decide

theorem Callback.fallback_ne_ok (callback : Callback) : callback.fallback ≠ .ok := by
  cases callback <;> simp only [fallback] <;> decide

/-- A file comes with a handle, and with nothing else. -/
theorem Reply.Tells.file?_eq {serial : Nat} {reply : Reply}
    {finding : Finding} (h : reply.Tells serial finding) :
    reply.file? = finding.handle?.map (OpenFile.mk serial) := by
  cases reply <;> cases finding <;> first | exact h | rfl | exact h.elim

/-! ## Replies -/

section Mirroring

variable [Engine]

section replies

variable {α β : Type} {host : Host} {vfs : Vfs} {serial : Nat}

/-- What a step answers and reaches on the VFS can be told from how it ends for a callback. -/
theorem Host.ends_attempt_asked (h : host.Lasting serial (· = vfs)) (step : StepM Vfs α) :
    (StepM.attempt (onVfs serial step)).Ends host
      (fun result host' => step.answer vfs = result.mapError .refused ∧
        host'.Lasting serial (· = step.reached vfs))
      (fun _ _ => True) := by
  have hstep : ∀ now, now = vfs → step.Ends now
      (fun a after => step.answer vfs = .ok a ∧ after = step.reached vfs)
      (fun e after => step.answer vfs = .error e ∧ after = step.reached vfs) := by
    rintro _ rfl
    exact ⟨fun a ha => ⟨ha, rfl⟩, fun e he => ⟨he, rfl⟩⟩
  refine (ends_onVfs h hstep).attempt.mono ?_ fun _ _ _ => trivial
  intro result host' hend
  cases result with
  | ok a =>
    obtain ⟨registration, hregistered, hserial, hanswer, hreached⟩ := hend
    exact ⟨hanswer, registration, hregistered, hserial, hreached⟩
  | error error =>
    obtain ⟨registration, hregistered, hserial, hanswer, hreached⟩ := hend
    exact ⟨hanswer, registration, hregistered, hserial, hreached⟩

theorem Host.run_current {registration : Registration} (h : host.registered = some registration) :
    current.run host = .ok registration host := by
  simp [current, h]

variable {callback : Callback}

/-- When it ends, a call has taken the VFS where the operation takes it, and what is told of the
value fits the answer of the operation. -/
def Replies (callback : Callback) (serial : Nat) (operation : StepM Vfs Finding) (vfs : Vfs)
    (told : β → Reply) (call : StepM Host β) (host : Host) : Prop :=
  call.Ends host
    (fun value host' => host'.Lasting serial (· = operation.reached vfs) ∧
      callback.Agrees serial (told value) (operation.answer vfs))
    (fun _ _ => True)

/-- Of a call that attempts a step there is only to show that what is told fits each outcome. -/
theorem replies_attempt (h : host.Lasting serial (· = vfs)) {step : StepM Vfs α}
    {find : α → Finding} {told : β → Reply} {next : Except Error α → StepM Host β}
    (hnext : ∀ result, ∃ value, next result = pure value ∧
      callback.Agrees serial (told value) ((result.mapError Failure.refused).map find)) :
    Replies callback serial (find <$> step) vfs told
      (StepM.attempt (Host.onVfs serial step) >>= next) host := by
  refine (Host.ends_attempt_asked h step).bind (fun _ _ _ => trivial) ?_
  intro result host' ⟨hanswer, hreached⟩
  obtain ⟨value, hvalue, hagrees⟩ := hnext result
  rw [hvalue]
  refine .pure ⟨?_, ?_⟩
  · rwa [reached_map]
  · rwa [answer_map, hanswer]

/-- A callback with a name begins by looking at the registration. -/
theorem replies_current (h : host.Lasting serial (· = vfs)) {operation : StepM Vfs Finding}
    {told : β → Reply} {next : Registration → StepM Host β}
    (hnext : ∀ registration, registration.serial = serial →
      Replies callback serial operation vfs told (next registration) host) :
    Replies callback serial operation vfs told (Host.current >>= next) host := by
  obtain ⟨registration, hregistered, hserial, -⟩ := h
  exact (hnext registration hserial).of_run_eq (run_bind_of_ok (Host.run_current hregistered))

omit [Engine] in
/-- The code of an error fits a refusal, if there is no buffer to fill. -/
theorem agrees_refused {reply : Reply} {error : Error}
    (hcode : reply.code? = some (codeOf callback.fallback error)) (hfile : reply.file? = none)
    (hroom : callback.room? = none) : callback.Agrees serial reply (.error (.refused error)) :=
  ⟨hcode, codeOf_ne_ok callback.fallback_ne_ok error, hfile,
    fun _ h => by rw [hroom] at h; cases h⟩

/-- A code alone fits a step that finds nothing. -/
theorem replies_code (h : host.Lasting serial (· = vfs)) (step : StepM Vfs α)
    (hroom : callback.room? = none) :
    Replies callback serial ((fun _ => .nothing) <$> step) vfs .done
      (StepM.attempt (Host.onVfs serial step) >>= fun result =>
        pure (Host.codeOfResult callback.fallback result)) host := by
  refine replies_attempt h fun result => ⟨_, rfl, ?_⟩
  cases result with
  | ok a => exact ⟨rfl, trivial⟩
  | error error => exact agrees_refused rfl rfl hroom

theorem replies_xOpen (h : host.Lasting serial (· = vfs)) {name : NameArg} {path : String}
    (hname : name.text? = some path) (flags : Int32) (wantsFlags : Bool) :
    Replies (.opening name flags wantsFlags) serial
      (.handle <$> openPath path (regionOfFlags flags)) vfs .opened
      (Host.xOpen name flags wantsFlags) host := by
  refine replies_current h ?_
  rintro registration rfl
  cases name with
  | none => cases hname
  | some bytes =>
    rw [hname]
    refine replies_attempt h fun result => ?_
    cases result with
    | ok handle => exact ⟨_, rfl, rfl, rfl⟩
    | error error => exact ⟨_, rfl, agrees_refused rfl rfl rfl⟩

theorem replies_xDelete (h : host.Lasting serial (· = vfs)) {name : NameArg} {path : String}
    (hname : name.text? = some path) :
    Replies (.deleting name) serial ((fun _ => .nothing) <$> Vfs.remove path) vfs .done
      (Host.xDelete name) host := by
  refine replies_current h ?_
  rintro registration rfl
  rw [hname]
  exact replies_code h _ rfl

variable {file : OpenFile} {number : Nat} {amount : Int32} {position : Int64} {offset : Nat}

theorem replies_xRead (h : host.Lasting file.serial (· = vfs))
    (hoffset : offset? position = some offset) :
    Replies (.reading number amount position) file.serial
      (.bytes <$> Vfs.read file.handle offset (max amount.toInt 0).toNat) vfs .bytes
      (Host.xRead file amount position) host := by
  unfold Host.xRead
  rw [natural_eq, hoffset, byteCount_eq]
  refine replies_attempt h fun result => ?_
  cases result with
  | ok bytes => exact ⟨_, rfl, rfl, rfl⟩
  | error error =>
    refine ⟨_, rfl, rfl, codeOf_ne_ok (Callback.fallback_ne_ok _) error, rfl, ?_⟩
    intro _ hroom hshort
    cases hroom
    cases error with
    | pastEnd => rfl
    | _ => cases hshort

theorem replies_xWrite (h : host.Lasting file.serial (· = vfs)) (data : Bytes)
    (hoffset : offset? position = some offset) :
    Replies (.writing number data amount position) file.serial
      ((fun _ => .nothing) <$>
        Vfs.write file.handle offset (data.extract 0 (max amount.toInt 0).toNat)) vfs .done
      (Host.xWrite file data amount position) host := by
  unfold Host.xWrite
  rw [natural_eq, hoffset, byteCount_eq]
  exact replies_code h _ rfl

theorem replies_xTruncate (h : host.Lasting file.serial (· = vfs))
    (hoffset : offset? position = some offset) :
    Replies (.truncating number position) file.serial
      ((fun _ => .nothing) <$> Vfs.truncate file.handle offset) vfs .done
      (Host.xTruncate file position) host := by
  unfold Host.xTruncate
  rw [natural_eq, hoffset]
  exact replies_code h _ rfl

theorem replies_xSync (h : host.Lasting file.serial (· = vfs)) (flags : Int32) :
    Replies (.syncing number flags) file.serial
      ((fun _ => .nothing) <$> Vfs.sync file.handle flags) vfs .done (Host.xSync file flags) host :=
  replies_code h _ rfl

theorem replies_xClose (h : host.Lasting file.serial (· = vfs)) :
    Replies (.closing number) file.serial ((fun _ => .nothing) <$> Vfs.close file.handle) vfs .done
      (Host.xClose file) host :=
  replies_code h _ rfl

omit [Engine] in
theorem ends_regionSize {known calls : Nat} (htame : vfs.registry.Tame known calls) (handle : Handle) :
    (regionSize handle).Ends vfs (fun size _ => size < 1 <<< 63) (fun _ _ => True) := by
  have hrecord : (Vfs.record handle.blob).Ends vfs (fun record _ => record.partition.Tame)
      (fun _ _ => True) := by
    refine .get_bind ?_
    split
    · rename_i record hrecord
      exact .pure (htame.all _ record hrecord).1
    · exact .refuse trivial
  have hpartition : (Vfs.partition handle).Ends vfs (fun partition _ => partition.Tame)
      (fun _ _ => True) := hrecord.bind (fun _ _ h => h) fun _ _ h => .pure h
  exact hpartition.bind (fun _ _ h => h) fun _ _ h => .pure (h.regionSize_lt _)

/-- A length is small enough for the signed number that it is told as. -/
theorem replies_xFileSize (h : host.Lasting file.serial (· = vfs)) {known calls : Nat}
    (htame : vfs.registry.Tame known calls) :
    Replies (.sizing number) file.serial (.size <$> regionSize file.handle) vfs .size
      (Host.xFileSize file) host := by
  have hsize : ∀ now, now = vfs → (regionSize file.handle).Ends now
      (fun size after => (regionSize file.handle).answer vfs = .ok size ∧
        (regionSize file.handle).reached vfs = after ∧ size < 1 <<< 63) (fun _ _ => True) := by
    rintro _ rfl
    exact (ends_regionSize htame file.handle).traced.mono (fun _ _ h => h) fun _ _ _ => trivial
  refine (Host.ends_onVfs h hsize).bind (fun _ _ _ => trivial) ?_
  rintro size host' ⟨registration, hregistered, hserial, hanswer, hreached, hlt⟩
  refine .pure ⟨⟨registration, hregistered, hserial, ?_⟩, ?_⟩
  · rw [reached_map]
    exact hreached.symm
  · rw [answer_map, hanswer]
    exact ⟨rfl, Int64.toInt_ofNat_of_lt hlt⟩

/-- A question about a path is answered with what is found, and the process stays as it is. -/
theorem run_xAccess {registration : Registration} (h : host.registered = some registration)
    (name : NameArg) (flags : Int32) :
    ∃ answer, (Host.xAccess name flags).run host = .ok answer host ∧
      match look? name flags with
      | some look => answer.1 = (look ⟨registration.registry, host.world⟩).code ∧
          (Reply.presence answer).Tells serial (look ⟨registration.registry, host.world⟩)
      | none => answer.1 = .ioAccess := by
  rw [Host.xAccess, run_bind_of_ok (Host.run_current h), look?]
  by_cases hflags : flags = accessExists
  · rw [if_neg (not_not_intro hflags), if_pos hflags]
    cases name.text? with
    | none => exact ⟨_, rfl, rfl⟩
    | some path => exact ⟨_, rfl, rfl, rfl⟩
  · rw [if_pos hflags, if_neg hflags]
    exact ⟨_, rfl, rfl, rfl⟩

/-- A look at the VFS leaves it as it is. -/
theorem replies_xAccess (h : host.Lasting serial (· = vfs)) {name : NameArg} {flags : Int32}
    {look : Vfs → Finding} (hlook : look? name flags = some look) :
    Replies (.accessing name flags) serial (look <$> get) vfs .presence
      (Host.xAccess name flags) host := by
  obtain ⟨registration, hregistered, rfl, rfl⟩ := id h
  obtain ⟨answer, hrun, htells⟩ := @run_xAccess _ _ registration.serial _ hregistered name flags
  rw [hlook] at htells
  obtain ⟨hanswer, hreached⟩ :=
    run_eq_ok_iff.mp (EStateM.run_get (⟨registration.registry, host.world⟩ : Vfs))
  refine .of_run_ok hrun ⟨?_, ?_⟩
  · rwa [reached_map, hreached]
  · rw [answer_map, hanswer]
    exact ⟨congrArg some htells.1, htells.2⟩

/-! ### Every callback -/

variable {handles : List Handle} {call : OpenFile → StepM Host Reply}

theorem onFile_mapped {handle : Handle} (hhandle : handles[number]? = some handle) :
    onFile (handles.map (OpenFile.mk serial)) number call = call ⟨serial, handle⟩ := by
  simp [onFile, hhandle]

theorem onFile_absent (hnone : handles[number]? = none) :
    onFile (handles.map (OpenFile.mk serial)) number call = pure .uncalled := by
  simp [onFile, hnone]

/-- A callback that asks for an operation replies with what that one answers. -/
theorem Callback.replies (h : host.Lasting serial (· = vfs)) {known calls : Nat}
    (htame : vfs.registry.Tame known calls) (callback : Callback) {operation : StepM Vfs Finding}
    (hask : callback.ask? handles = some operation) :
    (callback.step (handles.map (OpenFile.mk serial))).Ends host
      (fun reply host' => host'.Lasting serial (· = operation.reached vfs) ∧
        callback.Agrees serial reply (operation.answer vfs))
      (fun _ _ => True) := by
  cases callback
  all_goals
    simp only [ask?, Option.bind_eq_bind, Option.bind_eq_some_iff, Option.pure_def,
      Option.some.injEq] at hask
  case opening name flags wantsFlags =>
    obtain ⟨path, hname, rfl⟩ := hask
    exact (replies_xOpen h hname flags wantsFlags).map fun _ _ h => h
  case reading number amount position =>
    obtain ⟨handle, hhandle, offset, hoffset, rfl⟩ := hask
    rw [step, onFile_mapped hhandle]
    exact (replies_xRead h hoffset).map fun _ _ h => h
  case writing number data amount position =>
    obtain ⟨handle, hhandle, offset, hoffset, rfl⟩ := hask
    rw [step, onFile_mapped hhandle]
    exact (replies_xWrite h data hoffset).map fun _ _ h => h
  case truncating number size =>
    obtain ⟨handle, hhandle, offset, hoffset, rfl⟩ := hask
    rw [step, onFile_mapped hhandle]
    exact (replies_xTruncate h hoffset).map fun _ _ h => h
  case syncing number flags =>
    obtain ⟨handle, hhandle, rfl⟩ := hask
    rw [step, onFile_mapped hhandle]
    exact (replies_xSync h flags).map fun _ _ h => h
  case sizing number =>
    obtain ⟨handle, hhandle, rfl⟩ := hask
    rw [step, onFile_mapped hhandle]
    exact (replies_xFileSize h htame).map fun _ _ h => h
  case deleting name =>
    obtain ⟨path, hname, rfl⟩ := hask
    exact (replies_xDelete h hname).map fun _ _ h => h
  case accessing name flags =>
    obtain ⟨look, hlook, rfl⟩ := hask
    exact (replies_xAccess h hlook).map fun _ _ h => h
  case closing number =>
    obtain ⟨handle, hhandle, rfl⟩ := hask
    rw [step, onFile_mapped hhandle]
    exact (replies_xClose h).map fun _ _ h => h

theorem run_xOpen_unasked {registration : Registration} (h : host.registered = some registration)
    {name : NameArg} (hname : name.text? = none) (flags : Int32) (wantsFlags : Bool) :
    (Host.xOpen name flags wantsFlags).run host = .ok ⟨.ioError, none, none⟩ host := by
  rw [Host.xOpen, run_bind_of_ok (Host.run_current h)]
  cases name with
  | none => rfl
  | some bytes =>
    rw [hname]
    rfl

theorem run_xDelete_unasked {registration : Registration} (h : host.registered = some registration)
    {name : NameArg} (hname : name.text? = none) :
    (Host.xDelete name).run host = .ok .ioDelete host := by
  rw [Host.xDelete, run_bind_of_ok (Host.run_current h), hname]
  rfl

theorem run_xRead_unasked (file : OpenFile) (amount : Int32) (hoffset : offset? position = none) :
    (Host.xRead file amount position).run host = .ok (.ioRead, none) host := by
  simp [Host.xRead, natural_eq, hoffset, codeOf]

theorem run_xWrite_unasked (file : OpenFile) (data : Bytes) (amount : Int32)
    (hoffset : offset? position = none) :
    (Host.xWrite file data amount position).run host = .ok .ioWrite host := by
  simp [Host.xWrite, natural_eq, hoffset, codeOf]

theorem run_xTruncate_unasked (file : OpenFile) (hoffset : offset? position = none) :
    (Host.xTruncate file position).run host = .ok .ioTruncate host := by
  simp [Host.xTruncate, natural_eq, hoffset, codeOf]

/-- A callback of a file asks for nothing if there is no such file or nothing to ask for. -/
theorem run_onFile_unasked {code : Code}
    (hcall : ∀ handle, handles[number]? = some handle → ∃ reply,
      (call ⟨serial, handle⟩).run host = .ok reply host ∧ reply.file? = none ∧
        reply.code? = some code) :
    ∃ reply, (onFile (handles.map (OpenFile.mk serial)) number call).run host = .ok reply host ∧
      reply.file? = none ∧ (number < handles.length → reply.code? = some code) := by
  cases hhandle : handles[number]? with
  | none =>
    have hlength : handles.length ≤ number := List.getElem?_eq_none_iff.mp hhandle
    rw [onFile_absent hhandle]
    exact ⟨.uncalled, rfl, rfl, fun hlt => absurd hlt (Nat.not_lt.mpr hlength)⟩
  | some handle =>
    obtain ⟨reply, hrun, hfile, hcode⟩ := hcall handle hhandle
    rw [onFile_mapped hhandle]
    exact ⟨reply, hrun, hfile, fun _ => hcode⟩

/-- A callback whose argument makes no sense leaves the process as it is and fails. -/
theorem Callback.run_unasked (h : host.Lasting serial (· = vfs)) (callback : Callback)
    (hask : callback.ask? handles = none) :
    ∃ reply, (callback.step (handles.map (OpenFile.mk serial))).run host = .ok reply host ∧
      reply.file? = none ∧
      (callback.Made handles.length → reply.code? = some callback.fallback) := by
  obtain ⟨registration, hregistered, rfl, rfl⟩ := h
  cases callback
  all_goals
    simp only [ask?, Option.bind_eq_bind, Option.bind_eq_none_iff, Option.pure_def,
      reduceCtorEq, imp_false] at hask
  case opening name flags wantsFlags =>
    have hname : name.text? = none := Option.eq_none_iff_forall_ne_some.mpr hask
    exact ⟨_, run_map_of_ok (run_xOpen_unasked hregistered hname ..), rfl, fun _ => rfl⟩
  case reading number amount position =>
    refine run_onFile_unasked fun handle hhandle => ?_
    have hoffset := Option.eq_none_iff_forall_ne_some.mpr (hask handle hhandle)
    exact ⟨_, run_map_of_ok (run_xRead_unasked _ amount hoffset), rfl, rfl⟩
  case writing number data amount position =>
    refine run_onFile_unasked fun handle hhandle => ?_
    have hoffset := Option.eq_none_iff_forall_ne_some.mpr (hask handle hhandle)
    exact ⟨_, run_map_of_ok (run_xWrite_unasked _ data amount hoffset), rfl, rfl⟩
  case truncating number size =>
    refine run_onFile_unasked fun handle hhandle => ?_
    have hsize := Option.eq_none_iff_forall_ne_some.mpr (hask handle hhandle)
    exact ⟨_, run_map_of_ok (run_xTruncate_unasked _ hsize), rfl, rfl⟩
  case syncing number flags =>
    exact run_onFile_unasked fun handle hhandle => absurd hhandle (hask handle)
  case sizing number =>
    exact run_onFile_unasked fun handle hhandle => absurd hhandle (hask handle)
  case deleting name =>
    have hname : name.text? = none := Option.eq_none_iff_forall_ne_some.mpr hask
    exact ⟨_, run_map_of_ok (run_xDelete_unasked hregistered hname), rfl, fun _ => rfl⟩
  case accessing name flags =>
    have hlook : look? name flags = none := Option.eq_none_iff_forall_ne_some.mpr hask
    obtain ⟨answer, hrun, hcode⟩ := @run_xAccess _ _ registration.serial _ hregistered name flags
    rw [hlook] at hcode
    exact ⟨_, run_map_of_ok hrun, rfl, fun _ => congrArg some hcode⟩
  case closing number =>
    exact run_onFile_unasked fun handle hhandle => absurd hhandle (hask handle)

end replies

/-! ## Processes and programs -/

variable {serial calls : Nat} {vfs : Vfs}

omit [Engine] in
theorem Callback.Agrees.ended {callback : Callback} {reply : Reply} {operation : StepM Vfs Finding}
    (h : callback.Agrees serial reply (operation.answer vfs)) (handles : List Handle) :
    (Program.ended handles (operation.run vfs)).vfs = operation.reached vfs ∧
      (Program.ended handles (operation.run vfs)).handles.map (OpenFile.mk serial) =
        handles.map (OpenFile.mk serial) ++ reply.file?.toList := by
  cases hrun : operation.run vfs with
  | ok finding after =>
    obtain ⟨hanswer, hreached⟩ := run_eq_ok_iff.mp hrun
    rw [hanswer] at h
    rw [h.2.file?_eq]
    cases hhandle : finding.handle? <;> simp [Program.ended, hreached, hhandle]
  | error e after =>
    obtain ⟨hanswer, hreached⟩ := run_eq_error_iff.mp hrun
    rw [hanswer] at h
    cases e with
    | refused error => simp [Program.ended, hreached, h.2.2.1]
    | fault reason => exact h.elim

namespace Dialog

variable {d : Dialog} {p : Program}

theorem mirrors_start (name : String) (world : World) :
    (start name world).Mirrors 0 (.start world) :=
  ⟨⟨_, rfl, rfl, rfl⟩, rfl⟩

/-- A callback answers, and what it leaves behind is what its operation does. -/
theorem Mirrors.exists_reply (h : d.Mirrors serial p) (htame : d.Tame serial calls)
    (callback : Callback) :
    ∃ reply host, (callback.step d.files).run d.host = .ok reply host ∧
      match callback.ask? p.handles with
      | none => host = d.host ∧ reply.file? = none ∧
          (callback.Made d.files.length → reply.code? = some callback.fallback)
      | some operation => host.Lasting serial (· = operation.reached p.vfs) ∧
          callback.Agrees serial reply (operation.answer p.vfs) := by
  obtain ⟨known, hhost, hknown⟩ := htame
  obtain ⟨hvfs, hfiles⟩ := h
  cases hask : callback.ask? p.handles with
  | none =>
    obtain ⟨reply, hrun, hfile, hcode⟩ := callback.run_unasked hvfs hask
    rw [hfiles]
    exact ⟨reply, d.host, hrun, rfl, hfile, by simpa using hcode⟩
  | some operation =>
    obtain ⟨reply, hrun, -⟩ := (callback.ends_step hhost hknown).exists_value
    have htame : p.vfs.registry.Tame known calls := by
      obtain ⟨registration, hregistered, -, hthere⟩ := id hvfs
      obtain ⟨other, hother, -, htame⟩ := hhost
      cases hregistered.symm.trans hother
      rwa [← hthere]
    have hends := callback.replies hvfs htame hask
    rw [← hfiles] at hends
    exact ⟨reply, _, hrun, hends.value reply (run_eq_ok_iff.mp hrun).1⟩

theorem mirrors_after (h : d.Mirrors serial p) (htame : d.Tame serial calls) (event : Event) :
    (d.after event).Mirrors serial (p.after event) := by
  cases event with
  | calling callback =>
    obtain ⟨reply, host, hrun, hreply⟩ := h.exists_reply htame callback
    have hafter : d.after (.calling callback) = ⟨host, d.files ++ reply.file?.toList⟩ := by
      rw [after, run_map_of_ok hrun, ended]
    rw [hafter, Program.after]
    cases hask : callback.ask? p.handles with
    | none =>
      rw [hask] at hreply
      obtain ⟨rfl, hfile, -⟩ := hreply
      simpa [hfile] using h
    | some operation =>
      rw [hask] at hreply
      obtain ⟨hlasting, hagrees⟩ := hreply
      obtain ⟨hvfs, hhandles⟩ := hagrees.ended p.handles
      refine ⟨?_, ?_⟩
      · rw [hvfs]
        exact hlasting
      · rw [hhandles, h.files_eq]
  | placing path region openDevice =>
    obtain ⟨⟨registration, hregistered, rfl, hvfs⟩, hfiles⟩ := h
    have hafter : d.after (.placing path region openDevice) =
        ended d.files (((fun handle => some ⟨registration.serial, handle⟩) <$>
          Host.onVfs registration.serial (openVia path region openDevice)).run d.host) := by
      rw [after, hregistered]
    rw [hafter, Program.after, ← hvfs, run_map, run_map, Host.run_onVfs hregistered]
    cases (openVia path region openDevice).run ⟨registration.registry, d.host.world⟩ with
    | ok handle vfs =>
      exact ⟨⟨_, rfl, rfl, rfl⟩, by simp [hfiles, ended, Program.ended, Finding.handle?]⟩
    | error e vfs => exact ⟨⟨_, rfl, rfl, rfl⟩, hfiles⟩
  | meanwhile change =>
    obtain ⟨⟨registration, hregistered, hserial, hvfs⟩, hfiles⟩ := h
    refine ⟨⟨registration, hregistered, hserial, ?_⟩, hfiles⟩
    rw [Program.after, ← hvfs]
    rfl

theorem mirrors_run (h : d.Mirrors serial p) (htame : d.Tame serial calls) (events : List Event) :
    (d.run events).Mirrors serial (p.run events) := by
  induction events generalizing d p calls with
  | nil => exact h
  | cons event rest ih => exact ih (mirrors_after h htame event) (tame_after htame event)

/-- After any events the process is where the program is, and every callback has a reply. If the
callback asks for an operation, it leaves the process where that leaves the program, and the reply
fits its answer. If it asks for none, it leaves the process as it is and fails. -/
theorem callbacks_mirror_program (name : String) (world : World) (events : List Event)
    (callback : Callback) :
    let d := (start name world).run events
    let p := (Program.start world).run events
    d.Mirrors 0 p ∧
      (callback.Made d.files.length →
        ∃ reply host, (callback.step d.files).run d.host = .ok reply host ∧
          match callback.ask? p.handles with
          | none =>
            host = d.host ∧ reply.code? = some callback.fallback ∧ callback.fallback ≠ .ok
          | some operation =>
            host.Lasting 0 (· = operation.reached p.vfs) ∧
              callback.Agrees 0 reply (operation.answer p.vfs)) := by
  intro d p
  have htame : d.Tame 0 _ := tame_run (tame_start name world) events
  have hmirrors : d.Mirrors 0 p := mirrors_run (mirrors_start name world)
    (tame_start name world) events
  refine ⟨hmirrors, fun hmade => ?_⟩
  obtain ⟨reply, host, hrun, hreply⟩ := hmirrors.exists_reply htame callback
  refine ⟨reply, host, hrun, ?_⟩
  cases hask : callback.ask? p.handles with
  | none =>
    rw [hask] at hreply
    exact ⟨hreply.1, hreply.2.2 hmade, callback.fallback_ne_ok⟩
  | some operation =>
    rw [hask] at hreply
    exact hreply

end Dialog

end Mirroring

/-- A database that was placed on a medium that was never there: it is told to be empty, and a
write before its start fails. -/
theorem Dialog.callbacks_mirror_program_fresh :
    let d := (Dialog.start "twin" .initial).run [.placing "d" .database fun _ => pure (.ram "m")]
    (∃ reply host, ((Callback.sizing 0).step d.files).run d.host = .ok reply host ∧
      reply.code? = some .ok ∧ reply.Tells 0 (.size 0)) ∧
    ∃ reply, ((Callback.writing 0 #[1] 1 (-1)).step d.files).run d.host = .ok reply d.host ∧
      reply.code? = some .ioWrite := by
  intro d
  let events : List Event := [.placing "d" .database fun _ => pure (.ram "m")]
  obtain ⟨handle, opened, hopen, hserves⟩ := Vfs.openVia_initial "d" "m"
  have hprogram : (Program.start .initial).run events = ⟨opened, [handle]⟩ :=
    congrArg (Program.ended []) (run_map_of_ok hopen)
  have hsizing := Dialog.callbacks_mirror_program "twin" .initial events (.sizing 0)
  have hwriting := Dialog.callbacks_mirror_program "twin" .initial events (.writing 0 #[1] 1 (-1))
  rw [hprogram] at hsizing hwriting
  have hfiles : d.files = [⟨0, handle⟩] := hsizing.1.files_eq
  have hmade : 0 < d.files.length := by simp [hfiles]
  obtain ⟨reply, host, hrun, -, hagrees⟩ := hsizing.2 hmade
  rw [answer_map, hserves.answer_regionSize] at hagrees
  have hsize : Live.fresh.partition.regionSize handle.region = 0 := by
    cases handle.region <;> rfl
  obtain ⟨other, _, hother, rfl, hcode, -⟩ := hwriting.2 hmade
  rw [hsize] at hagrees
  exact ⟨⟨reply, host, hrun, hagrees⟩, other, hother, hcode⟩

end TwinRegion.Sqlite
