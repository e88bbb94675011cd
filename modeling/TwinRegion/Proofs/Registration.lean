/-
TwinRegion.Proofs.Registration — a registration outlasts the files opened through it.

A process calls the VFS through its registration, and a file that was opened
keeps the number of the registration it was opened through. Here is what any
row of calls leads to (`Hosting.run`). As long as a registration lasts, what
is called through it is a session on its VFS (`Hosting.Orderly`), so a blob
is open there exactly while a file on it is, and the registry counts the
names of these files (`Session.Orderly.size_eq`). A registration is only
taken back when that count is zero, which is when no file needs it any more.
-/
import Mathlib.Data.Finset.Card
import TwinRegion.Proofs.Naming
import TwinRegion.Proofs.Session
import TwinRegion.Sqlite.Callback

namespace TwinRegion

open StepM Vfs

namespace Session

variable {s : Session} {name : String}

/-! ## Names that are open -/

/-- The names with a handle that is out. -/
def openNames (s : Session) : Finset String :=
  ((s.grants.filter fun grant => !grant.closed).map (·.name)).toFinset

theorem mem_openNames :
    name ∈ s.openNames ↔ ∃ grant ∈ s.grants, grant.closed = false ∧ grant.name = name := by
  simp [openNames, and_assoc]

/-- A name is open exactly while a handle under it is out. -/
theorem Orderly.isSome_lookup?_iff (h : s.Orderly) :
    (s.vfs.registry.lookup? name).isSome = true ↔ name ∈ s.openNames := by
  rw [mem_openNames]
  constructor
  · intro hopen
    obtain ⟨id, hname⟩ := Option.isSome_iff_exists.mp hopen
    obtain ⟨record, hrecord, -, hpos⟩ := h.leads name id hname
    rw [(h.kept id record hrecord).refs_eq, h.holders_eq hname] at hpos
    obtain ⟨grant, hgrant⟩ := List.exists_mem_of_length_pos hpos
    obtain ⟨hgiven, hunder, hout⟩ := mem_openUnder.mp hgrant
    exact ⟨grant, hgiven, hout, hunder⟩
  · rintro ⟨grant, hgiven, hout, rfl⟩
    rw [h.lookup?_of_out hgiven hout, Option.isSome_some]

/-- The registry is as large as there are names with a handle out. -/
theorem Orderly.size_eq (h : s.Orderly) : s.vfs.registry.size = s.openNames.card := by
  have hkeys : s.vfs.registry.names.keys.toFinset = s.openNames := by
    ext name
    rw [List.mem_toFinset, Std.ExtTreeMap.mem_keys, Std.ExtTreeMap.mem_iff_isSome_getElem?]
    exact h.isSome_lookup?_iff
  rw [← hkeys, List.toFinset_card_of_nodup Std.ExtTreeMap.nodup_keys, Std.ExtTreeMap.length_keys,
    Registry.size]

end Session

namespace Sqlite

/-! ## Calls -/

/-- A file that was opened, the name of its blob, and whether it was closed. -/
structure Opened where
  name : String
  file : OpenFile
  closed : Bool

/-- A process, and every file that was opened through a registration in it, oldest first. -/
structure Hosting [Engine] where
  host : Host
  files : List Opened

/-- What is called in a process, and what happens to the world meanwhile. What SQLite answers to
a registration, and to its end, is part of the call. -/
inductive Call where
  | registering (settings : Settings) (hasBelow : Bool) (code : Code)
  | unregistering (code : Code)
  | opening (name : NameArg) (flags : Int32) (wantsFlags : Bool)
  /-- Closes the file that was opened under this number, unless it was closed before. -/
  | closing (number : Nat)
  /-- What else the VFS is asked for through the registration of a number. -/
  | asking (serial : Nat) (request : Request)
  | meanwhile (change : World → World)

/-- The name of the blob that an opening is about. -/
def openingName (name : NameArg) (flags : Int32) : String :=
  blobName (name.text?.getD "") (regionOfFlags flags)

namespace Hosting

variable [Engine]

/-- The process after a call, successful or not. A file counts as closed once `xClose` was
called for it, whatever that answered. -/
def after [PatternLibrary] (s : Hosting) : Call → Hosting
  | .registering settings hasBelow code =>
    { s with host := (Host.register settings hasBelow code).reached s.host }
  | .unregistering code => { s with host := (Host.unregister code).reached s.host }
  | .opening name flags wantsFlags =>
    match (Host.xOpen name flags wantsFlags).run s.host with
    | .ok answer host =>
      ⟨host, s.files ++ answer.file.toList.map fun file => ⟨openingName name flags, file, false⟩⟩
    | .error _ host => { s with host := host }
  | .closing number =>
    match s.files[number]? with
    | some ⟨name, file, false⟩ =>
      ⟨(Host.xClose file).reached s.host, s.files.set number ⟨name, file, true⟩⟩
    | _ => s
  | .asking serial request =>
    { s with host := (Host.onVfs serial request.perform).reached s.host }
  | .meanwhile change =>
    { s with host := { s.host with world := change s.host.world } }

/-- The process after calls made one after the other. -/
def run [PatternLibrary] (s : Hosting) (calls : List Call) : Hosting := calls.foldl after s

/-- A process in which nothing was called yet. -/
def start (world : World) : Hosting := ⟨.start world, []⟩

/-- The names with a file that was not closed. -/
def openNames (s : Hosting) : Finset String :=
  ((s.files.filter fun opened => !opened.closed).map (·.name)).toFinset

theorem mem_openNames {s : Hosting} {name : String} :
    name ∈ s.openNames ↔ ∃ opened ∈ s.files, opened.closed = false ∧ opened.name = name := by
  simp [openNames, and_assoc]

end Hosting

/-! ## Calls through the registration -/

namespace Host

variable [Engine] {α : Type} {host : Host} {registration : Registration}

/-- The process when the VFS of its registration has come to a state. -/
def withVfs (host : Host) (registration : Registration) (vfs : Vfs) : Host :=
  { host with registered := some { registration with registry := vfs.registry }, world := vfs.world }

theorem run_onVfs (h : host.registered = some registration) (step : StepM Vfs α) :
    (onVfs registration.serial step).run host =
      match step.run ⟨registration.registry, host.world⟩ with
      | .ok a vfs => .ok a (host.withVfs registration vfs)
      | .error e vfs => .error e (host.withVfs registration vfs) := by
  simp only [onVfs, EStateM.run_bind, EStateM.run_get, h, if_true, run_focus]
  cases step.run ⟨registration.registry, host.world⟩ <;> rfl

theorem reached_onVfs (h : host.registered = some registration) (step : StepM Vfs α) :
    (onVfs registration.serial step).reached host =
      host.withVfs registration (step.reached ⟨registration.registry, host.world⟩) := by
  simp only [reached, run_onVfs h]
  cases step.run ⟨registration.registry, host.world⟩ <;> rfl

/-- A registration that does not last any more is of no use. -/
theorem reached_onVfs_gone {serial : Nat}
    (h : ∀ registration, host.registered = some registration → registration.serial ≠ serial)
    (step : StepM Vfs α) : (onVfs serial step).reached host = host := by
  have hrun : (onVfs serial step).run host = .error (.fault .dangling) host := by
    simp only [onVfs, EStateM.run_bind, EStateM.run_get]
    cases hregistered : host.registered with
    | none => rfl
    | some registration =>
      simp only [if_neg (h registration hregistered)]
      rfl
  exact (run_eq_error_iff.mp hrun).2

/-- Whatever a callback answers, it leaves the state that its step has reached. -/
theorem reached_answer (file : OpenFile) (fallback : Code) (step : StepM Vfs α) :
    (answer file fallback step).reached host = (onVfs file.serial step).reached host := by
  simp only [answer, reached_bind_pure]
  simp only [reached, run_attempt]
  rcases (onVfs file.serial step).run host with ⟨_, _⟩ | ⟨_ | _, _⟩ <;> rfl

/-- Without a registration there is nothing to open a file through. -/
theorem run_xOpen_unregistered (h : host.registered = none) (name : NameArg) (flags : Int32)
    (wantsFlags : Bool) :
    (xOpen name flags wantsFlags).run host = .error (.fault .dangling) host := by
  simp [xOpen, current, h]

/-- Without a text for its name no file is opened. -/
theorem run_xOpen_unnamed (h : host.registered = some registration) {name : NameArg}
    (hname : name.text? = none) (flags : Int32) (wantsFlags : Bool) :
    ∃ answer, answer.file = none ∧ (xOpen name flags wantsFlags).run host = .ok answer host := by
  cases name with
  | none => exact ⟨_, rfl, by simp [xOpen, current, h]; rfl⟩
  | some path => exact ⟨_, rfl, by simp [xOpen, current, h, hname]; rfl⟩

/-- With a text for its name a file is opened if the region at that path is. -/
theorem run_xOpen_named (h : host.registered = some registration) {name : NameArg} {path : String}
    (hname : name.text? = some path) (flags : Int32) (wantsFlags : Bool) :
    match (openPath path (regionOfFlags flags)).run ⟨registration.registry, host.world⟩ with
    | .ok handle vfs => ∃ answer, answer.file = some ⟨registration.serial, handle⟩ ∧
        (xOpen name flags wantsFlags).run host = .ok answer (host.withVfs registration vfs)
    | .error _ vfs => (∃ answer, answer.file = none ∧
        (xOpen name flags wantsFlags).run host = .ok answer (host.withVfs registration vfs)) ∨
        ∃ fault, (xOpen name flags wantsFlags).run host =
          .error fault (host.withVfs registration vfs) := by
  cases name with
  | none => cases hname
  | some bytes =>
    have hrun := run_onVfs h (openPath path (regionOfFlags flags))
    cases hopen : (openPath path (regionOfFlags flags)).run ⟨registration.registry, host.world⟩ with
    | ok handle vfs =>
      rw [hopen] at hrun
      exact ⟨_, rfl, by simp [xOpen, current, h, hname, hrun]; rfl⟩
    | error e vfs =>
      rw [hopen] at hrun
      cases e with
      | refused error => exact .inl ⟨_, rfl, by simp [xOpen, current, h, hname, hrun]; rfl⟩
      | fault fault => exact .inr ⟨.fault fault, by simp [xOpen, current, h, hname, hrun]⟩

end Host

/-! ## Order -/

/-- The files opened through one registration, as handles on its VFS. -/
def grantsThrough (serial : Nat) (files : List Opened) : List Grant :=
  (files.filter fun opened => opened.file.serial = serial).map fun opened =>
    ⟨opened.name, opened.file.handle, opened.closed⟩

theorem grantsThrough_append (serial : Nat) (files : List Opened) (opened : Opened) :
    grantsThrough serial (files ++ [opened]) = grantsThrough serial files ++
      if opened.file.serial = serial then [⟨opened.name, opened.file.handle, opened.closed⟩]
      else [] := by
  simp only [grantsThrough, List.filter_append, List.map_append]
  split <;> simp_all

/-- A file has a number among those of its registration too. -/
theorem exists_grantsThrough_closing {files : List Opened} {number : Nat} {name : String}
    {file : OpenFile} (h : files[number]? = some ⟨name, file, false⟩) :
    ∃ place, (grantsThrough file.serial files)[place]? = some ⟨name, file.handle, false⟩ ∧
      grantsThrough file.serial (files.set number ⟨name, file, true⟩) =
        (grantsThrough file.serial files).set place ⟨name, file.handle, true⟩ := by
  induction files generalizing number with
  | nil => cases h
  | cons first rest ih =>
    cases number with
    | zero =>
      obtain rfl := Option.some.inj h
      exact ⟨0, by simp [grantsThrough], by simp [grantsThrough]⟩
    | succ number =>
      obtain ⟨place, hplace, hset⟩ := ih h
      by_cases hfirst : first.file.serial = file.serial
      · refine ⟨place + 1, ?_, ?_⟩
        · simpa [grantsThrough, hfirst] using hplace
        · simpa [grantsThrough, hfirst] using hset
      · refine ⟨place, ?_, ?_⟩
        · simpa [grantsThrough, hfirst] using hplace
        · simpa [grantsThrough, hfirst] using hset

namespace Hosting

section Running

variable [Engine]

/-- Every registration had a number of its own. A file that was not closed was opened through
the registration that lasts, and what was called through that is a session on its VFS. -/
structure Orderly (s : Hosting) : Prop where
  fresh : ∀ opened ∈ s.files, opened.file.serial < s.host.nextSerial
  current : ∀ opened ∈ s.files, opened.closed = false → ∃ registration,
    s.host.registered = some registration ∧ registration.serial = opened.file.serial
  session : ∀ registration, s.host.registered = some registration →
    registration.serial < s.host.nextSerial ∧ ∃ session : Session, session.Orderly ∧
      session.vfs = ⟨registration.registry, s.host.world⟩ ∧
      session.grants = grantsThrough registration.serial s.files

variable {s : Hosting} {registration : Registration}

theorem orderly_start (world : World) : (start world).Orderly where
  fresh _ h := by cases h
  current _ h := by cases h
  session _ h := by cases h

/-- While a registration lasts, the files that were not closed were opened through it. -/
theorem Orderly.serial_eq (h : s.Orderly) (hregistered : s.host.registered = some registration)
    {opened : Opened} (hopened : opened ∈ s.files) (hclosed : opened.closed = false) :
    opened.file.serial = registration.serial := by
  obtain ⟨other, hother, hserial⟩ := h.current opened hopened hclosed
  cases hregistered.symm.trans hother
  exact hserial.symm

/-- The names that are open are open in the VFS of the registration. -/
theorem Orderly.openNames_eq (h : s.Orderly) (hregistered : s.host.registered = some registration)
    {session : Session} (hgrants : session.grants = grantsThrough registration.serial s.files) :
    session.openNames = s.openNames := by
  ext name
  rw [Session.mem_openNames, mem_openNames, hgrants]
  constructor
  · rintro ⟨grant, hgrant, hclosed, rfl⟩
    obtain ⟨opened, hopened, rfl⟩ := List.mem_map.mp hgrant
    exact ⟨opened, (List.mem_filter.mp hopened).1, hclosed, rfl⟩
  · rintro ⟨opened, hopened, hclosed, rfl⟩
    have hserial := h.serial_eq hregistered hopened hclosed
    refine ⟨⟨opened.name, opened.file.handle, opened.closed⟩, ?_, hclosed, rfl⟩
    exact List.mem_map.mpr ⟨opened, List.mem_filter.mpr ⟨hopened, by simpa using hserial⟩, rfl⟩

/-- The registry of the registration is as large as there are names that are open. -/
theorem Orderly.size_eq (h : s.Orderly) (hregistered : s.host.registered = some registration) :
    registration.registry.size = s.openNames.card := by
  obtain ⟨-, session, hsession, hvfs, hgrants⟩ := h.session registration hregistered
  rw [← h.openNames_eq hregistered hgrants, ← hsession.size_eq, hvfs]

/-- Without a registration nothing is open. -/
theorem Orderly.openNames_unregistered (h : s.Orderly) (hregistered : s.host.registered = none) :
    s.openNames = ∅ := by
  rw [Finset.eq_empty_iff_forall_notMem]
  intro name hname
  obtain ⟨opened, hopened, hclosed, -⟩ := mem_openNames.mp hname
  obtain ⟨registration, hsome, -⟩ := h.current opened hopened hclosed
  cases hregistered.symm.trans hsome

/-- A call through the registration is a deed in its session. -/
theorem Orderly.of_session (h : s.Orderly) (hregistered : s.host.registered = some registration)
    {session : Session} (hsession : session.Orderly) {files : List Opened}
    (hgrants : session.grants = grantsThrough registration.serial files)
    (hfiles : ∀ opened ∈ files, opened ∈ s.files ∨ opened.file.serial = registration.serial) :
    (⟨s.host.withVfs registration session.vfs, files⟩ : Hosting).Orderly := by
  have hlast := (h.session registration hregistered).1
  constructor
  · intro opened hopened
    rcases hfiles opened hopened with hold | hserial
    · exact h.fresh opened hold
    · exact hserial ▸ hlast
  · intro opened hopened hclosed
    refine ⟨_, rfl, ?_⟩
    rcases hfiles opened hopened with hold | hserial
    · exact (h.serial_eq hregistered hold hclosed).symm
    · exact hserial.symm
  · intro other hother
    obtain rfl := Option.some.inj hother
    exact ⟨hlast, session, hsession, rfl, hgrants⟩

/-- So is a call that opens and closes nothing. -/
theorem Orderly.of_deed (h : s.Orderly) (hregistered : s.host.registered = some registration)
    {deed : Deed} {vfs : Vfs} (hdeed : ∀ session : Session,
      session.vfs = ⟨registration.registry, s.host.world⟩ →
        (session.after deed).vfs = vfs ∧ (session.after deed).grants = session.grants) :
    ({ s with host := s.host.withVfs registration vfs } : Hosting).Orderly := by
  obtain ⟨-, session, hsession, hvfs, hgrants⟩ := h.session registration hregistered
  obtain ⟨rfl, hsame⟩ := hdeed session hvfs
  exact h.of_session hregistered (Session.orderly_after hsession deed) (hsame.trans hgrants)
    fun opened hopened => .inl hopened

/-! ### Registering -/

/-- A new registration, under the next number. -/
theorem Orderly.registered (h : s.Orderly) (hregistered : s.host.registered = none)
    (name : String) :
    ({ s with
      host := { s.host with
        registered := some ⟨name, s.host.nextSerial, .empty⟩
        nextSerial := s.host.nextSerial + 1 } } : Hosting).Orderly := by
  constructor
  · intro opened hopened
    exact Nat.lt_succ_of_lt (h.fresh opened hopened)
  · intro opened hopened hclosed
    obtain ⟨registration, hsome, -⟩ := h.current opened hopened hclosed
    cases hregistered.symm.trans hsome
  · intro registration hnew
    obtain rfl := Option.some.inj hnew
    refine ⟨Nat.lt_succ_self _, Session.start s.host.world, Session.orderly_start _, rfl, ?_⟩
    -- no file was opened through a number that no registration had
    have hnone : (s.files.filter fun opened => opened.file.serial = s.host.nextSerial) = [] := by
      rw [List.filter_eq_nil_iff]
      intro opened hopened hserial
      exact absurd (of_decide_eq_true hserial) (Nat.ne_of_lt (h.fresh opened hopened))
    rw [grantsThrough, hnone]
    rfl

/-- The end of a registration through which no file is open. -/
theorem Orderly.unregistered (h : s.Orderly) (hclosed : ¬ 0 < s.openNames.card) :
    ({ s with host := { s.host with registered := none } } : Hosting).Orderly := by
  refine ⟨h.fresh, fun opened hopened hout => ?_, fun registration hsome => by cases hsome⟩
  have hname : opened.name ∈ s.openNames := mem_openNames.mpr ⟨opened, hopened, hout, rfl⟩
  exact absurd (Finset.card_pos.mpr ⟨_, hname⟩) hclosed

/-- Taking the registration back is refused by the number of names that are open, and then by
SQLite, if at all. -/
theorem Orderly.run_unregister (h : s.Orderly) (code : Code) :
    (Host.unregister code).run s.host =
      if 0 < s.openNames.card then .error (.refused (.blobsOpen s.openNames.card)) s.host
      else if s.host.registered.isSome ∧ code ≠ .ok then
        .error (.refused (.registrationRefused code)) s.host
      else .ok () { s.host with registered := none } := by
  cases hregistered : s.host.registered with
  | none =>
    have hsame : ({ s.host with registered := none } : Host) = s.host := by rw [← hregistered]
    rw [h.openNames_unregistered hregistered, Finset.card_empty, if_neg (Nat.lt_irrefl 0), hsame]
    simp [Host.unregister, hregistered]
  | some registration =>
    rw [← h.size_eq hregistered]
    by_cases hopen : 0 < registration.registry.size
    · simp [Host.unregister, hregistered, hopen]
    · by_cases hcode : code = .ok
      · simp [Host.unregister, hregistered, hopen, hcode]
      · simp [Host.unregister, hregistered, hopen, hcode]

theorem Orderly.unregistering [PatternLibrary] (h : s.Orderly) (code : Code) :
    (s.after (.unregistering code)).Orderly := by
  have hrun := h.run_unregister code
  split at hrun
  · rwa [after, (run_eq_error_iff.mp hrun).2]
  · split at hrun
    · rwa [after, (run_eq_error_iff.mp hrun).2]
    · rw [after, (run_eq_ok_iff.mp hrun).2]
      exact h.unregistered ‹_›

variable [PatternLibrary]

/-- What becomes of the registration when another is asked for. -/
theorem run_register_registered (hregistered : s.host.registered = some registration)
    {settings : Settings} {label : Label} (hlabel : settings.label = .ok label) (hasBelow : Bool)
    (code : Code) :
    (Host.register settings hasBelow code).run s.host =
      if registration.name = label.text then .ok () s.host
      else .error (.refused (.otherLabel registration.name)) s.host := by
  simp [Host.run_register, hlabel, hregistered]

/-- Where nothing is registered, a label that can be listed is. -/
theorem run_register_unregistered (hregistered : s.host.registered = none) {settings : Settings}
    {label : Label} {listed : ListedName} (hlabel : settings.label = .ok label)
    (hlisted : ListedName.ofText label.text = .ok listed) :
    (Host.register settings).run s.host = .ok () { s.host with
      registered := some ⟨label.text, s.host.nextSerial, .empty⟩
      nextSerial := s.host.nextSerial + 1 } := by
  simp [Host.run_register, hlabel, hregistered, hlisted]

theorem Orderly.registering (h : s.Orderly) (settings : Settings) (hasBelow : Bool) (code : Code) :
    (s.after (.registering settings hasBelow code)).Orderly := by
  have hrun := Host.run_register settings hasBelow code s.host
  rw [after]
  split at hrun
  · rwa [(run_eq_error_iff.mp hrun).2]
  · split at hrun
    · rwa [(run_eq_ok_iff.mp hrun).2]
    · rwa [(run_eq_error_iff.mp hrun).2]
  · rename_i label hlabel hregistered
    split at hrun
    · split at hrun
      · rwa [(run_eq_error_iff.mp hrun).2]
      · split at hrun
        · rw [(run_eq_ok_iff.mp hrun).2]
          exact h.registered hregistered label.text
        · rwa [(run_eq_error_iff.mp hrun).2]
    · rwa [(run_eq_error_iff.mp hrun).2]

/-! ### Opening and closing -/

theorem Orderly.opening (h : s.Orderly) (name : NameArg) (flags : Int32) (wantsFlags : Bool) :
    (s.after (.opening name flags wantsFlags)).Orderly := by
  cases hregistered : s.host.registered with
  | none => simpa [after, Host.run_xOpen_unregistered hregistered] using h
  | some registration =>
    cases hname : name.text? with
    | none =>
      obtain ⟨answer, hfile, hrun⟩ := Host.run_xOpen_unnamed hregistered hname flags wantsFlags
      simpa [after, hrun, hfile] using h
    | some path =>
      have hrun := Host.run_xOpen_named hregistered hname flags wantsFlags
      obtain ⟨-, session, hsession, hvfs, hgrants⟩ := h.session registration hregistered
      let deed : Deed := .opening path (regionOfFlags flags) World.openFile
      cases hopen : (openVia path (regionOfFlags flags) World.openFile).run
          ⟨registration.registry, s.host.world⟩ with
      | ok handle vfs =>
        rw [openPath, hopen] at hrun
        obtain ⟨answer, hfile, hrun⟩ := hrun
        have hafter : s.after (.opening name flags wantsFlags) =
            ⟨s.host.withVfs registration (session.after deed).vfs,
              s.files ++ [⟨openingName name flags, ⟨registration.serial, handle⟩, false⟩]⟩ := by
          simp [after, hrun, hfile, Session.after, deed, hvfs, hopen]
        rw [hafter]
        refine h.of_session hregistered (Session.orderly_after hsession deed) ?_
          fun opened hopened => ?_
        · rw [grantsThrough_append, if_pos rfl, ← hgrants]
          simp [Session.after, deed, hvfs, hopen, openingName, hname]
        · rcases List.mem_append.mp hopened with hold | hnew
          · exact .inl hold
          · obtain rfl := List.mem_singleton.mp hnew
            exact .inr rfl
      | error e vfs =>
        rw [openPath, hopen] at hrun
        have hafter : s.after (.opening name flags wantsFlags) =
            { s with host := s.host.withVfs registration vfs } := by
          rcases hrun with ⟨answer, hfile, hrun⟩ | ⟨fault, hrun⟩
          · simp [after, hrun, hfile]
          · simp [after, hrun]
        rw [hafter]
        refine @Orderly.of_deed _ s registration h hregistered deed vfs fun other hother => ?_
        constructor <;> simp [Session.after, deed, hother, hopen]

theorem Orderly.closing (h : s.Orderly) (number : Nat) : (s.after (.closing number)).Orderly := by
  rw [after]
  split
  · rename_i name file hfile
    obtain ⟨registration, hregistered, hserial⟩ :=
      h.current _ (List.mem_of_getElem? hfile) rfl
    obtain ⟨-, session, hsession, hvfs, hgrants⟩ := h.session registration hregistered
    obtain ⟨place, hplace, hset⟩ := exists_grantsThrough_closing hfile
    have hreached : (Host.xClose file).reached s.host =
        s.host.withVfs registration (session.after (.closing place)).vfs := by
      rw [Host.xClose, Host.reached_answer, ← hserial, Host.reached_onVfs hregistered, ← hvfs]
      simp [Session.after, hgrants, hserial, hplace]
    rw [hreached]
    refine h.of_session hregistered (Session.orderly_after hsession (.closing place)) ?_ ?_
    · simp [Session.after, hgrants, hserial, hplace, hset]
    · intro opened hopened
      rcases List.mem_or_eq_of_mem_set hopened with hold | rfl
      · exact .inl hold
      · exact .inr hserial.symm
  · exact h

theorem Orderly.asking (h : s.Orderly) (serial : Nat) (request : Request) :
    (s.after (.asking serial request)).Orderly := by
  rw [after]
  by_cases hcurrent : ∃ registration,
      s.host.registered = some registration ∧ registration.serial = serial
  · obtain ⟨registration, hregistered, rfl⟩ := hcurrent
    rw [Host.reached_onVfs hregistered]
    refine @Orderly.of_deed _ s registration h hregistered (.asking request) _ fun session hvfs =>
      ⟨?_, rfl⟩
    rw [Session.after, hvfs]
  · rw [Host.reached_onVfs_gone]
    · exact h
    · exact fun registration hregistered hserial => hcurrent ⟨registration, hregistered, hserial⟩

theorem Orderly.meanwhile (h : s.Orderly) (change : World → World) :
    (s.after (.meanwhile change)).Orderly := by
  refine ⟨h.fresh, h.current, fun registration hregistered => ?_⟩
  obtain ⟨hlast, session, hsession, hvfs, hgrants⟩ := h.session registration hregistered
  refine ⟨hlast, session.after (.meanwhile change), Session.orderly_after hsession _, ?_, hgrants⟩
  rw [Session.after, hvfs]
  rfl

/-! ## Runs -/

theorem orderly_after (h : s.Orderly) (call : Call) : (s.after call).Orderly := by
  cases call with
  | registering settings hasBelow code => exact h.registering settings hasBelow code
  | unregistering code => exact h.unregistering code
  | opening name flags wantsFlags => exact h.opening name flags wantsFlags
  | closing number => exact h.closing number
  | asking serial request => exact h.asking serial request
  | meanwhile change => exact h.meanwhile change

theorem orderly_run (h : s.Orderly) (calls : List Call) : (s.run calls).Orderly := by
  induction calls generalizing s with
  | nil => exact h
  | cons call rest ih => exact ih (orderly_after h call)

/-- After any calls, and whatever SQLite answered to them: a file that was not closed was opened
through the registration that lasts, in whose VFS the name of its blob still leads to the record
of the file, with the device there; a later registration has a number that no file was opened
through. If SQLite lets the name go, taking the registration back is refused, and changes nothing,
exactly while names have a file that was not closed, and says how many; else nothing is registered
from then on. Registering a label once more changes nothing: it is done already under the same
name, and refused under another. Where nothing is registered, a label that can be listed is
registered if SQLite takes it. -/
theorem registration_outlasts_files (world : World) (calls : List Call) :
    let s := (start world).run calls
    (∀ opened ∈ s.files, opened.file.serial < s.host.nextSerial ∧
      (opened.closed = false → ∃ registration record,
        s.host.registered = some registration ∧ registration.serial = opened.file.serial ∧
        registration.registry.lookup? opened.name = some opened.file.handle.blob ∧
        registration.registry.record? opened.file.handle.blob = some record ∧
        record.device.isSome = true)) ∧
    Host.unregister.run s.host =
      (if 0 < s.openNames.card then .error (.refused (.blobsOpen s.openNames.card)) s.host
      else .ok () { s.host with registered := none }) ∧
    (∀ registration settings label, s.host.registered = some registration →
      settings.label = .ok label → ∀ hasBelow code,
        (Host.register settings hasBelow code).run s.host =
          if registration.name = label.text then .ok () s.host
          else .error (.refused (.otherLabel registration.name)) s.host) ∧
    ∀ settings label listed, s.host.registered = none → settings.label = .ok label →
      ListedName.ofText label.text = .ok listed →
        (Host.register settings).run s.host = .ok () { s.host with
          registered := some ⟨label.text, s.host.nextSerial, .empty⟩
          nextSerial := s.host.nextSerial + 1 } := by
  intro s
  have h : s.Orderly := orderly_run (orderly_start world) calls
  refine ⟨fun opened hopened => ⟨h.fresh opened hopened, fun hclosed => ?_⟩,
    by simpa using h.run_unregister .ok,
    fun registration settings label hregistered hlabel =>
      run_register_registered hregistered hlabel,
    fun settings label listed hregistered hlabel =>
      run_register_unregistered hregistered hlabel⟩
  obtain ⟨registration, hregistered, hserial⟩ := h.current opened hopened hclosed
  obtain ⟨-, session, hsession, hvfs, hgrants⟩ := h.session registration hregistered
  have hgrant : (⟨opened.name, opened.file.handle, opened.closed⟩ : Grant) ∈ session.grants := by
    rw [hgrants]
    exact List.mem_map.mpr
      ⟨opened, List.mem_filter.mpr ⟨hopened, by simpa using hserial.symm⟩, rfl⟩
  have hname := hsession.lookup?_of_out hgrant hclosed
  obtain ⟨record, hrecord, -, hpos⟩ := hsession.leads _ _ hname
  have hheld := (hsession.kept _ record hrecord).held_iff.mpr hpos
  rw [hvfs] at hname hrecord
  exact ⟨registration, record, hregistered, hserial, hname, hrecord, hheld⟩

end Running

/-- The VFS is registered as `twin`, and a blob is opened in it. -/
def hosted : List Call :=
  [.registering ⟨"twin"⟩ true .ok, .opening (some "a") openMainDatabase false]

/-- A first registration is made; with a file open through it, it stays, and neither its end nor
another name is granted. -/
theorem registration_outlasts_files_twin :
    (∃ host, (Host.register ⟨"twin"⟩).run (.start .initial) = .ok () host ∧
      host.nameInUse? = some "twin") ∧
    let s := (start .initial).run hosted
    (∃ opened ∈ s.files, ∃ registration, s.host.registered = some registration ∧
      registration.name = "twin" ∧ registration.serial = opened.file.serial ∧
      (registration.registry.lookup? opened.name).isSome = true) ∧
    Host.unregister.run s.host = .error (.refused (.blobsOpen 1)) s.host ∧
    (Host.register ⟨"twin"⟩).run s.host = .ok () s.host ∧
    (Host.register ⟨"other"⟩).run s.host = .error (.refused (.otherLabel "twin")) s.host := by
  have hlabel : ∀ name, Label.IsLabel name →
      ∃ label, (⟨name⟩ : Settings).label = .ok label ∧ label.text = name := by
    intro name hname
    obtain ⟨label, hlabel⟩ := Label.exists_ofText_iff.mpr
      ((Label.accepted_iff Matcher.documented).mpr hname)
    exact ⟨label, hlabel, Label.ofText_eq_ok_iff.mp hlabel⟩
  obtain ⟨twin, htwin, htext⟩ := hlabel "twin" ⟨by decide, 't', "win".toList, by decide, by decide,
    by simp [Label.IsLabelChar, Label.IsLetter]⟩
  obtain ⟨other, hother, hdiffers⟩ := hlabel "other" ⟨by decide, 'o', "ther".toList, by decide,
    by decide, by simp [Label.IsLabelChar, Label.IsLetter]⟩
  obtain ⟨listed, hlisted⟩ := ListedName.exists_ofText_label Matcher.documented twin
  refine ⟨⟨_, (registration_outlasts_files .initial []).2.2.2 _ twin listed rfl htwin hlisted, ?_⟩, ?_⟩
  · exact congrArg some htext
  · intro s
    obtain ⟨hfiles, hend, hagain, -⟩ := registration_outlasts_files .initial hosted
    have hone : s.openNames.card = 1 := by decide +kernel
    have hname : s.host.nameInUse? = some "twin" := by decide +kernel
    obtain ⟨opened, hopened, hclosed, -⟩ := mem_openNames.mp
      (Finset.card_pos.mp (by rw [hone]; decide)).choose_spec
    obtain ⟨-, hout⟩ := hfiles opened hopened
    obtain ⟨registration, record, hregistered, hserial, hlookup, -⟩ := hout hclosed
    have hregistration : registration.name = "twin" := by
      rw [Host.nameInUse?, hregistered] at hname
      exact Option.some.inj hname
    refine ⟨⟨opened, hopened, registration, hregistered, hregistration, hserial, ?_⟩, ?_, ?_, ?_⟩
    · rw [hlookup, Option.isSome_some]
    · rw [hend, if_pos (by rw [hone]; decide), hone]
    · rw [hagain registration _ twin hregistered htwin, hregistration, htext, if_pos rfl]
    · rw [hagain registration _ other hregistered hother, hregistration, hdiffers, if_neg (by decide)]

end Hosting

end Sqlite

end TwinRegion
