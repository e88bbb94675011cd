/-
TwinRegion.Proofs.Naming — the names that a VFS can have.

A label is a text in a grammar (`Label.IsLabel`), and `Label.ofText` is asked
whether a text is one. It has a library look for the pattern of labels, so
what comes out rests on what is documented of the library. The pattern is
one that the documentation speaks of (`text_labelParts`), and where its parts
occur, the whole text is of the grammar (`occurs_labelParts_iff`): both ends
are fixed, and nothing can stand behind the last character, not even a line
break.

The grammar keeps out NUL, in characters and so in bytes
(`zero_mem_toUTF8_iff`), and therefore the text of a label is a name in
SQLite's list as it stands: what could still be wrong with a name after it
was accepted as a label never is (`Host.run_register`).
`labels_follow_grammar` puts that together, for every text, every text of
settings and every process.
-/
import Mathlib.Tactic.SplitIfs
import TwinRegion.Outside.Engine
import TwinRegion.Outside.Libraries
import TwinRegion.Proofs.Matching
import TwinRegion.Proofs.Outcome

namespace TwinRegion

open Label
open Pattern
open PatternLibrary (Documented search compile? isMatch)
open Settings (usualLabel)
open TomlReader (readName?)

/-! ## The bytes of a text -/

/-- The bytes are read from the front, and kept the other way round meanwhile. -/
theorem toList_loop (bytes : ByteArray) (i : Nat) (read : List UInt8) :
    ByteArray.toList.loop bytes i read = read.reverse ++ bytes.data.toList.drop i := by
  fun_induction ByteArray.toList.loop bytes i read with
  | case1 i read hmore ih =>
    have hnext : bytes.data.toList.drop i = bytes.get! i :: bytes.data.toList.drop (i + 1) := by
      rw [List.drop_eq_getElem_cons (by simpa using hmore), ByteArray.get!]
      simp [hmore]
    rw [ih, hnext, List.reverse_cons, List.append_assoc, List.singleton_append]
  | case2 i read hdone =>
    have hend : bytes.data.toList.drop i = [] := by
      simpa using hdone
    rw [hend, List.append_nil]

theorem toList_toUTF8 (text : String) :
    text.toUTF8.toList = text.toList.flatMap String.utf8EncodeChar := by
  rw [String.toUTF8, ← String.utf8Encode_toList, List.utf8Encode, ByteArray.toList, toList_loop]
  simp

theorem zero_eq_ofNat_iff {n : Nat} : (0 : UInt8) = UInt8.ofNat n ↔ n % 256 = 0 := by
  rw [← UInt8.toNat_inj, UInt8.toNat_ofNat']
  exact eq_comm

/-- Only NUL has a zero among its bytes: the first byte of a longer character has its high bits
set, and so have those that follow. -/
theorem zero_mem_utf8EncodeChar_iff {c : Char} : 0 ∈ String.utf8EncodeChar c ↔ c = '\x00' := by
  have hnul : c = '\x00' ↔ c.val.toNat = 0 := by
    rw [Char.ext_iff, ← UInt32.toNat_inj]
    rfl
  rw [hnul, String.utf8EncodeChar]
  simp only [apply_ite (fun bytes => (0 : UInt8) ∈ bytes), List.mem_cons, List.not_mem_nil,
    or_false, zero_eq_ofNat_iff]
  split_ifs <;> omega

theorem zero_mem_toUTF8_iff {text : String} : 0 ∈ text.toUTF8.toList ↔ '\x00' ∈ text.toList := by
  rw [toList_toUTF8, List.mem_flatMap]
  simp [zero_mem_utf8EncodeChar_iff]

/-! ## Labels -/

namespace Label

/-- The letters that a label can start with. -/
def IsLetter (c : Char) : Prop := ('A' ≤ c ∧ c ≤ 'Z') ∨ ('a' ≤ c ∧ c ≤ 'z')

/-- The characters that a label can go on with. -/
def IsLabelChar (c : Char) : Prop := IsLetter c ∨ ('0' ≤ c ∧ c ≤ '9') ∨ c = '_' ∨ c = '-'

instance : DecidablePred IsLetter := fun _ => inferInstanceAs (Decidable (_ ∨ _))

instance : DecidablePred IsLabelChar := fun _ => inferInstanceAs (Decidable (_ ∨ _))

/-- The grammar of labels: a letter, then label characters, and not too long. -/
structure IsLabel (text : String) : Prop where
  size_le : text.utf8ByteSize ≤ maxSize
  shape : ∃ first rest, text.toList = first :: rest ∧ IsLetter first ∧ ∀ c ∈ rest, IsLabelChar c

variable {text : String} {c : Char}

theorem IsLabel.isLabelChar (h : IsLabel text) (hc : c ∈ text.toList) : IsLabelChar c := by
  obtain ⟨first, rest, htext, hfirst, hrest⟩ := h.shape
  rw [htext, List.mem_cons] at hc
  rcases hc with rfl | hc
  · exact .inl hfirst
  · exact hrest c hc

theorem IsLabel.nul_notMem (h : IsLabel text) : '\x00' ∉ text.toList := by
  intro hnul
  have hchar := h.isLabelChar hnul
  simp only [IsLabelChar, IsLetter] at hchar
  revert hchar
  decide

theorem IsLabel.size_pos (h : IsLabel text) : 1 ≤ text.utf8ByteSize := by
  obtain ⟨first, rest, htext, -⟩ := h.shape
  have hne : text ≠ "" := by
    rintro rfl
    simp at htext
  exact Nat.pos_of_ne_zero fun hzero => hne (String.utf8ByteSize_eq_zero_iff.mp hzero)

/-! ### The pattern -/

def letterKind : Kind := .among [('A', 'Z'), ('a', 'z')] false

def labelKind : Kind := .among [('A', 'Z'), ('a', 'z'), ('0', '9'), ('_', '_')] true

/-- The parts of the pattern of labels. -/
def labelParts : List Part := [.start, .one letterKind, .many labelKind, .stop]

theorem text_labelParts : Pattern.text labelParts = pattern := by decide

theorem has_letterKind_iff : letterKind.Has c ↔ IsLetter c := by
  simp [letterKind, Kind.Has, IsLetter]

theorem has_labelKind_iff : labelKind.Has c ↔ IsLabelChar c := by
  have hunderscore : '_' ≤ c ∧ c ≤ '_' ↔ c = '_' :=
    ⟨fun h => Char.le_antisymm h.2 h.1, fun h => h ▸ ⟨Char.le_refl _, Char.le_refl _⟩⟩
  simp [labelKind, Kind.Has, IsLabelChar, IsLetter, hunderscore, or_assoc]

theorem occurs_labelParts_iff {text : List Char} :
    Occurs labelParts text ↔
      ∃ first rest, text = first :: rest ∧ IsLetter first ∧ ∀ c ∈ rest, IsLabelChar c := by
  simp only [Occurs, labelParts, Fits, has_letterKind_iff, has_labelKind_iff, and_true]
  constructor
  · rintro ⟨_, _, rfl, rfl, first, _, rfl, hfirst, rest, _, rfl, hrest, rfl⟩
    exact ⟨first, rest, by rw [List.append_nil, List.nil_append], hfirst, hrest⟩
  · rintro ⟨first, rest, rfl, hfirst, hrest⟩
    exact ⟨[], _, rfl, rfl, first, rest, rfl, hfirst, rest, [], (List.append_nil rest).symm, hrest,
      rfl⟩

variable [PatternLibrary]

/-- The pattern of labels is read, and found in the texts that have its shape. -/
theorem search_pattern (hdocumented : Documented) (text : String) :
    ∃ found, search pattern text = .ok found ∧ (found = true ↔ Occurs labelParts text.toList) := by
  obtain ⟨compiled, hcompiled⟩ := hdocumented.reads labelParts (by decide) (by decide)
  rw [text_labelParts] at hcompiled
  refine ⟨isMatch compiled text, ?_, ?_⟩
  · rw [search, hcompiled]
  · exact hdocumented.finds labelParts compiled (by decide) (text_labelParts ▸ hcompiled) text

theorem accepted_iff (hdocumented : Documented) : Accepted text ↔ IsLabel text := by
  obtain ⟨found, hsearch, hfound⟩ := search_pattern hdocumented text
  rw [occurs_labelParts_iff] at hfound
  constructor
  · rintro ⟨-, hsize, haccepted⟩
    cases hsearch.symm.trans haccepted
    exact ⟨hsize, hfound.mp rfl⟩
  · intro h
    refine ⟨?_, h.size_le, by rw [hsearch, hfound.mpr h.shape]⟩
    simpa [String.isEmpty] using Nat.ne_of_gt h.size_pos

/-- A text is read as the label whose text it is. -/
theorem ofText_eq_ok_iff {label : Label} : Label.ofText text = .ok label ↔ label.text = text := by
  constructor
  · intro h
    unfold Label.ofText at h
    split_ifs at h
    · cases h
    · cases h
    · split at h
      · cases h
      · cases h
      · cases h
        rfl
  · rintro rfl
    have hsome : ¬ label.text.isEmpty = true := by
      rw [label.accepted.isEmpty_eq]
      exact Bool.false_ne_true
    unfold Label.ofText
    rw [dif_neg hsome, dif_neg (Nat.not_lt.mpr label.accepted.size_le)]
    split
    · cases label.accepted.search_eq.symm.trans ‹_›
    · cases label.accepted.search_eq.symm.trans ‹_›
    · rfl

theorem exists_ofText_iff : (∃ label, Label.ofText text = .ok label) ↔ Accepted text := by
  constructor
  · rintro ⟨label, hlabel⟩
    exact ofText_eq_ok_iff.mp hlabel ▸ label.accepted
  · intro h
    exact ⟨⟨text, h⟩, ofText_eq_ok_iff.mpr rfl⟩

/-- What is no label is refused as one. -/
theorem ofText_eq_refuse (hdocumented : Documented) (h : ¬ IsLabel text) :
    ∃ reason, Label.ofText text = refuse (.badLabel reason) := by
  obtain ⟨found, hsearch, -⟩ := search_pattern hdocumented text
  unfold Label.ofText
  split_ifs with hempty hsize
  · exact ⟨_, rfl⟩
  · exact ⟨_, rfl⟩
  · split
    · rename_i failure hfailure
      cases hsearch.symm.trans hfailure
    · exact ⟨_, rfl⟩
    · rename_i htrue
      refine absurd ((accepted_iff hdocumented).mp ⟨?_, Nat.le_of_not_lt hsize, htrue⟩) h
      exact Bool.eq_false_iff.mpr hempty

end Label

/-! ## Settings -/

namespace Settings

variable [PatternLibrary] [TomlReader] {settings : Settings} {text : String}

/-- A text of settings gives those of the name in it, or else of the usual one, if that is a
label. -/
theorem ofText_eq_ok_iff : Settings.ofText text = .ok settings ↔
    (∃ name, readName? text = some name ∧ settings.name = name.getD usualLabel) ∧
      Accepted settings.name := by
  unfold Settings.ofText
  cases hname : readName? text with
  | none => simp [refuse]
  | some name =>
    constructor
    · intro h
      obtain ⟨label, hlabel, hsettings⟩ := bind_eq_ok_iff.mp h
      cases hsettings
      exact ⟨⟨name, rfl, rfl⟩, exists_ofText_iff.mp ⟨label, hlabel⟩⟩
    · obtain ⟨given⟩ := settings
      rintro ⟨⟨_, hsome, rfl⟩, haccepted⟩
      cases hsome
      obtain ⟨label, hlabel⟩ := exists_ofText_iff.mpr haccepted
      exact bind_eq_ok_iff.mpr ⟨label, hlabel, rfl⟩

theorem accepted_of_ofFile {store : FileStore} {path : String}
    (h : Settings.ofFile store path = .ok settings) : Accepted settings.name := by
  unfold Settings.ofFile at h
  split at h
  · cases h
  · exact (ofText_eq_ok_iff.mp h).2

end Settings

/-! ## Registering -/

namespace Sqlite

/-- A text is listed as the name that has its bytes. -/
theorem ListedName.ofText_eq_ok_iff {name : String} {listed : ListedName} :
    ListedName.ofText name = .ok listed ↔ listed.bytes = name.toUTF8.toList := by
  obtain ⟨bytes, hnul⟩ := listed
  unfold ListedName.ofText
  split
  · rename_i position hfound
    constructor
    · intro h
      cases h
    · rintro rfl
      cases hfound.symm.trans (nulPosition?_eq_none_iff.mpr hnul)
  · simp [eq_comm]

theorem ListedName.exists_ofText_iff {name : String} :
    (∃ listed, ListedName.ofText name = .ok listed) ↔ '\x00' ∉ name.toList := by
  rw [← zero_mem_toUTF8_iff]
  constructor
  · rintro ⟨listed, hlisted⟩
    exact ofText_eq_ok_iff.mp hlisted ▸ listed.nul_notMem
  · intro hnul
    exact ⟨⟨name.toUTF8.toList, hnul⟩, ofText_eq_ok_iff.mpr rfl⟩

section Registering

variable [PatternLibrary]

/-- The text of a label can be listed. -/
theorem ListedName.exists_ofText_label (hdocumented : Documented) (label : Label) :
    ∃ listed, ListedName.ofText label.text = .ok listed :=
  exists_ofText_iff.mpr ((accepted_iff hdocumented).mp label.accepted).nul_notMem

variable [Engine] {settings : Settings} {host : Host} {hasBelow : Bool} {code : Code}

/-- A name that is no label is refused, and so is another name than the one that is registered.
Where nothing is registered, it is left to the name to be listed and to SQLite to take it. -/
theorem Host.run_register (settings : Settings) (hasBelow : Bool) (code : Code) (host : Host) :
    (Host.register settings hasBelow code).run host =
      match settings.label, host.registered with
      | .error failure, _ => .error failure host
      | .ok label, some registration =>
        if registration.name = label.text then .ok () host
        else .error (.refused (.otherLabel registration.name)) host
      | .ok label, none =>
        if hasBelow then
          match ListedName.ofText label.text with
          | .error failure => .error failure host
          | .ok _ =>
            if code = .ok then
              .ok () { host with
                registered := some ⟨label.text, host.nextSerial, .empty⟩
                nextSerial := host.nextSerial + 1 }
            else .error (.refused (.registrationRefused code)) host
        else .error (.refused .noFallbackVfs) host := by
  cases hlabel : settings.label with
  | error failure => simp [Host.register, hlabel]
  | ok label =>
    cases hregistered : host.registered with
    | some registration =>
      by_cases hname : registration.name = label.text
      · simp [Host.register, hlabel, hregistered, hname]
      · simp [Host.register, hlabel, hregistered, hname]
    | none =>
      cases hasBelow with
      | false => simp [Host.register, hlabel, hregistered]
      | true =>
        cases hlisted : ListedName.ofText label.text with
        | error failure => simp [Host.register, hlabel, hregistered, hlisted]
        | ok listed =>
          by_cases hcode : code = .ok
          · simp [Host.register, hlabel, hregistered, hlisted, hcode]
          · simp [Host.register, hlabel, hregistered, hlisted, hcode]

/-- Where nothing is registered and SQLite goes along, every label can be registered, and nothing
else. -/
theorem Host.exists_run_register_iff (hdocumented : Documented) (hregistered : host.registered = none) :
    (∃ host', (Host.register settings hasBelow code).run host = .ok () host') ↔
      IsLabel settings.name ∧ hasBelow = true ∧ code = .ok := by
  rw [← accepted_iff hdocumented, ← Label.exists_ofText_iff, Host.run_register, hregistered,
    Settings.label]
  cases Label.ofText settings.name with
  | error failure => simp
  | ok label =>
    obtain ⟨listed, hlisted⟩ := ListedName.exists_ofText_label hdocumented label
    simp only [hlisted]
    cases hasBelow <;> by_cases hcode : code = .ok <;> simp [hcode]

/-- With any library of patterns that does what is documented, and any reader of TOML: a text is a
label exactly if it has between 1 and 64 bytes, the first character is a letter of ASCII, and every
other is one, a digit, an underscore or a hyphen. The label is then that text, and any other text is
refused as a label. So whatever settings are read, from a text or from a file, have a label for
their name. The text of a label is always a name in SQLite's list: where nothing is registered, the
name of any settings is registered exactly if it is a label, there is a file system below, and
SQLite takes the name. -/
theorem labels_follow_grammar [TomlReader] (hdocumented : Documented) :
    (∀ text : String,
      ((∃ label, Label.ofText text = .ok label) ↔ IsLabel text) ∧
      (IsLabel text ↔ 1 ≤ text.utf8ByteSize ∧ text.utf8ByteSize ≤ 64 ∧
        ∃ first rest, text.toList = first :: rest ∧ IsLetter first ∧ ∀ c ∈ rest, IsLabelChar c) ∧
      (∀ label, Label.ofText text = .ok label → label.text = text) ∧
      (¬ IsLabel text → ∃ reason, Label.ofText text = refuse (.badLabel reason))) ∧
    (∀ text settings, Settings.ofText text = .ok settings ↔
      (∃ name, readName? text = some name ∧ settings.name = name.getD usualLabel) ∧
        IsLabel settings.name) ∧
    (∀ store path settings, Settings.ofFile store path = .ok settings → IsLabel settings.name) ∧
    ∀ settings (host : Host),
      (∀ label, settings.label = .ok label → ∃ listed, ListedName.ofText label.text = .ok listed ∧
        listed.bytes = label.text.toUTF8.toList) ∧
      (host.registered = none → ∀ hasBelow code,
        ((∃ host', (Host.register settings hasBelow code).run host = .ok () host') ↔
          IsLabel settings.name ∧ hasBelow = true ∧ code = .ok)) := by
  refine ⟨fun text => ⟨?_, ?_, fun label => Label.ofText_eq_ok_iff.mp,
    Label.ofText_eq_refuse hdocumented⟩, fun text settings => ?_, fun store path settings h => ?_,
    fun settings host => ⟨fun label _ => ?_, fun hregistered hasBelow code => ?_⟩⟩
  · rw [Label.exists_ofText_iff, accepted_iff hdocumented]
  · exact ⟨fun h => ⟨h.size_pos, h.size_le, h.shape⟩, fun ⟨_, hsize, hshape⟩ => ⟨hsize, hshape⟩⟩
  · rw [Settings.ofText_eq_ok_iff, accepted_iff hdocumented]
  · exact (accepted_iff hdocumented).mp (Settings.accepted_of_ofFile h)
  · obtain ⟨listed, hlisted⟩ := ListedName.exists_ofText_label hdocumented label
    exact ⟨listed, hlisted, ListedName.ofText_eq_ok_iff.mp hlisted⟩
  · exact Host.exists_run_register_iff hdocumented hregistered

end Registering

/-- Settings without a name have the usual one, which is registered; a label does not go on
behind a line break. -/
theorem labels_follow_grammar_usual :
    Documented ∧ IsLabel usualLabel ∧
      (∃ label, Label.ofText usualLabel = .ok label ∧ label.text = usualLabel) ∧
      ¬ IsLabel "twin\n" ∧ (∃ reason, Label.ofText "twin\n" = refuse (.badLabel reason)) ∧
      Settings.ofText "" = .ok .usual ∧
      (∃ label listed, Settings.usual.label = .ok label ∧
        ListedName.ofText label.text = .ok listed ∧ listed.bytes = usualLabel.toUTF8.toList) ∧
      ∃ host, (Host.register .usual).run .initial = .ok () host := by
  obtain ⟨htexts, hsettings, -, hnames⟩ := labels_follow_grammar Matcher.documented
  have husual : IsLabel usualLabel := ⟨by decide, 'H', "B_SQL".toList, by decide, by decide,
    by simp [IsLabelChar, IsLetter]⟩
  have hbroken : ¬ IsLabel "twin\n" := fun h =>
    absurd (h.isLabelChar (by decide : '\n' ∈ "twin\n".toList)) (by decide)
  obtain ⟨label, hlabel⟩ := (htexts usualLabel).1.mpr husual
  have htext := (htexts usualLabel).2.2.1 label hlabel
  obtain ⟨hlist, hregister⟩ := hnames .usual .initial
  obtain ⟨listed, hlisted, hbytes⟩ := hlist label hlabel
  refine ⟨Matcher.documented, husual, ⟨label, hlabel, htext⟩, hbroken,
    (htexts "twin\n").2.2.2 hbroken, ?_, ⟨label, listed, hlabel, hlisted, htext ▸ hbytes⟩,
    (hregister rfl true .ok).mpr ⟨husual, rfl, rfl⟩⟩
  exact (hsettings "" .usual).mpr ⟨⟨none, by decide, rfl⟩, husual⟩

end Sqlite

end TwinRegion
