import GalleryCatalog.Proofs.ConfigurationDocuments

/-!
# Configuration faults

What is wrong in a configuration is reported as an error of the configuration: text that is no
document, and the first item of a document that is wrong. Some faults get past this and end the
call with an error of another kind: bytes that are no UTF-8, an integer with too many digits, and
a path whose home directory is not found. All other runs over a file that can be read give settings
or an error of the configuration.
-/

set_option autoImplicit false

namespace GalleryCatalog

/-- Whether an error is one of the configuration. -/
def SettingsError.isConfiguration : SettingsError → Bool
  | .notUtf8 | .tooManyDigits _ | .path _ | .unreadable _ => false
  | _ => true

theorem SettingsError.isConfiguration_of_item {e : SettingsError} (h : e.item?.isSome) :
    e.isConfiguration := by
  cases e <;> first | rfl | cases h

theorem FileTree.fileAt_of_read {t : FileTree} {here : Location} {p : Path} {bytes : ByteArray}
    (h : t.read here p = .ok bytes) : t.fileAt here p = .ok true := by
  unfold read at h
  unfold fileAt
  cases hl : t.locate here p with
  | error e =>
    rw [hl] at h
    cases h
  | ok l =>
    rw [hl] at h
    cases hc : t.content? l with
    | none =>
      simp only [hc, Bind.bind, Except.bind] at h
      split at h <;> cases h
    | some content => simp [isFile, hc]

namespace Settings

open Document (Entries)

variable {host : Host} {t : FileTree} {path : Option Path} {storage : Option Storage}
  {bytes : ByteArray}

/-- Where the configuration file is found, and the storage that goes with it. -/
structure Located (host : Host) (path : Option Path) (storage : Option Storage) (s : Storage)
    (p : Path) : Prop where
  storage : storageOr host storage = .ok s
  file : file host s path = .ok p

/-- The configuration file, wherever it is found, is there and holds these bytes. -/
def Holds (host : Host) (t : FileTree) (path : Option Path) (storage : Option Storage)
    (bytes : ByteArray) : Prop :=
  ∀ s p, Located host path storage s p → t.read host.here p = .ok bytes

/-- The faults that get past the report of errors of the configuration. -/
inductive Escapes (host : Host) (path : Option Path) (storage : Option Storage)
    (bytes : ByteArray) : SettingsError → Prop
  | storage {e : PathError} (hnone : storage = none) (h : Storage.ofEnvironment host = .error e) :
      Escapes host path storage bytes (.path e)
  | file {s : Storage} {e : PathError} (hs : storageOr host storage = .ok s)
      (h : file host s path = .error (.path e)) : Escapes host path storage bytes (.path e)
  | notUtf8 {s : Storage} {p : Path} (hat : Located host path storage s p)
      (h : String.fromUTF8? bytes = none) : Escapes host path storage bytes .notUtf8
  | tooManyDigits {s : Storage} {p : Path} {text : String} {count : Nat}
      (hat : Located host path storage s p) (htext : String.fromUTF8? bytes = some text)
      (h : Toml.read text = .error (.tooManyDigits count)) :
      Escapes host path storage bytes (.tooManyDigits count)
  | images {s : Storage} {p : Path} {text : String} {doc : Entries} {e : PathError}
      (hat : Located host path storage s p) (htext : String.fromUTF8? bytes = some text)
      (hdoc : Toml.read text = .ok doc) (h : (documentFaults host s doc).head? = some (.path e)) :
      Escapes host path storage bytes (.path e)

/-! ## The steps of loading -/

theorem ofPath_eq_error {α : Type} {x : Except PathError α} {e : SettingsError}
    (h : ofPath x = .error e) : ∃ f, x = .error f ∧ e = .path f := by
  cases x with
  | ok a => cases h
  | error f => exact ⟨f, rfl, (Except.error.inj h).symm⟩

theorem storageOr_eq_error {e : SettingsError} (h : storageOr host storage = .error e) :
    storage = none ∧ ∃ f, Storage.ofEnvironment host = .error f ∧ e = .path f := by
  cases storage with
  | some s => cases h
  | none => exact ⟨rfl, ofPath_eq_error h⟩

theorem file_eq_error {s : Storage} {e : SettingsError} (h : file host s path = .error e) :
    ∃ f, e = .path f := by
  unfold file at h
  split at h
  · cases h
  · split at h
    all_goals
      obtain ⟨f, -, he⟩ := ofPath_eq_error h
      exact ⟨f, he⟩

theorem imagesPath_eq_error {s : Storage} {named : Option String} {e : SettingsError}
    (h : imagesPath host s named = .error e) : ∃ f, e = .path f := by
  unfold imagesPath at h
  split at h
  all_goals
    obtain ⟨f, -, he⟩ := ofPath_eq_error h
    exact ⟨f, he⟩

/-- A document is refused by an error of the configuration or for the path of the images. -/
theorem ofDocument_eq_error {s : Storage} {doc : Entries} {e : SettingsError}
    (h : ofDocument host s doc = .error e) : e.isConfiguration ∨ ∃ f, e = .path f := by
  have hhead := ((ofDocument_decides host s doc).error_iff e).mp h
  obtain hitem | hpath := isSome_item_of_mem (List.mem_of_mem_head? hhead)
  · exact .inl (SettingsError.isConfiguration_of_item hitem)
  · unfold pathFaults at hpath
    split at hpath
    · cases hpath
    · next e' he' =>
      rw [List.mem_singleton.mp hpath]
      exact .inr (imagesPath_eq_error he')

theorem load_of_storage {s : Storage} (hs : storageOr host storage = .ok s) :
    load host t path storage =
      file host s path >>= fun p => documentAt host t p >>= ofDocument host s := by
  simp only [load, hs]
  rfl

/-- A file that holds some bytes is read for the document that they are. -/
theorem load_of_located {s : Storage} {p : Path} (hholds : Holds host t path storage bytes)
    (hat : Located host path storage s p) :
    load host t path storage = entriesOf p bytes >>= ofDocument host s := by
  have hread := hholds s p hat
  have hdocument : documentAt host t p = entriesOf p bytes := by
    simp only [documentAt, FileTree.fileAt_of_read hread, hread]
  rw [load_of_storage hat.storage, hat.file, ← hdocument]
  rfl

theorem entriesOf_of_text {p : Path} {text : String} (htext : String.fromUTF8? bytes = some text) :
    entriesOf p bytes = (Toml.read text).mapError (ofFault p) := by
  simp only [entriesOf, htext]

/-- A fault that escapes ends the call, with no error of the configuration. -/
theorem Escapes.load_eq {e : SettingsError} (hholds : Holds host t path storage bytes)
    (h : Escapes host path storage bytes e) :
    load host t path storage = .error e ∧ e.isConfiguration = false := by
  cases h with
  | storage hnone h =>
    subst hnone
    refine ⟨?_, rfl⟩
    simp only [load, storageOr, h]
    rfl
  | file hs h =>
    refine ⟨?_, rfl⟩
    rw [load_of_storage hs, h]
    rfl
  | notUtf8 hat h =>
    refine ⟨?_, rfl⟩
    rw [load_of_located hholds hat]
    simp only [entriesOf, h]
    rfl
  | tooManyDigits hat htext h =>
    refine ⟨?_, rfl⟩
    rw [load_of_located hholds hat, entriesOf_of_text htext, h]
    rfl
  | images hat htext hdoc h =>
    refine ⟨?_, rfl⟩
    rw [load_of_located hholds hat, entriesOf_of_text htext, hdoc]
    exact ((ofDocument_decides _ _ _).error_iff _).mpr h

/-- Any other error that ends the call is one of the configuration. -/
theorem isConfiguration_or_escapes {e : SettingsError} (hholds : Holds host t path storage bytes)
    (h : load host t path storage = .error e) :
    e.isConfiguration ∨ Escapes host path storage bytes e := by
  have hescapes {e' : SettingsError} (h' : Escapes host path storage bytes e') :
      e.isConfiguration ∨ Escapes host path storage bytes e :=
    .inr (Except.error.inj ((h'.load_eq hholds).1.symm.trans h) ▸ h')
  cases hs : storageOr host storage with
  | error e' =>
    obtain ⟨hnone, f, hf, -⟩ := storageOr_eq_error hs
    exact hescapes (.storage hnone hf)
  | ok s =>
    cases hp : file host s path with
    | error e' =>
      obtain ⟨f, rfl⟩ := file_eq_error hp
      exact hescapes (.file hs hp)
    | ok p =>
      have hat : Located host path storage s p := ⟨hs, hp⟩
      rw [load_of_located hholds hat] at h
      cases htext : String.fromUTF8? bytes with
      | none => exact hescapes (.notUtf8 hat htext)
      | some text =>
        rw [entriesOf_of_text htext] at h
        cases hdoc : Toml.read text with
        | error fault =>
          cases fault with
          | malformed =>
            rw [hdoc] at h
            obtain rfl := Except.error.inj h
            exact .inl rfl
          | tooManyDigits count => exact hescapes (.tooManyDigits hat htext hdoc)
        | ok doc =>
          rw [hdoc] at h
          obtain hconfiguration | ⟨f, rfl⟩ := ofDocument_eq_error h
          · exact .inl hconfiguration
          · exact .inr (.images hat htext hdoc (((ofDocument_decides host s doc).error_iff _).mp h))

/-- Loading a file that can be read gives settings or an error of the configuration, apart from
exactly the faults that escape. -/
theorem load_reports_or_escapes (hholds : Holds host t path storage bytes) :
    ((∃ s, load host t path storage = .ok s) ∨
        (∃ e, load host t path storage = .error e ∧ e.isConfiguration) ↔
        ¬ ∃ e, Escapes host path storage bytes e) ∧
      ∀ e, Escapes host path storage bytes e →
        load host t path storage = .error e ∧ e.isConfiguration = false := by
  refine ⟨⟨?_, fun hnone => ?_⟩, fun e h => h.load_eq hholds⟩
  · rintro hends ⟨e, hescapes⟩
    obtain ⟨hload, hother⟩ := hescapes.load_eq hholds
    obtain ⟨s, hs⟩ | ⟨e', he', hconfiguration⟩ := hends
    · rw [hload] at hs
      cases hs
    · rw [hload] at he'
      rw [← Except.error.inj he', hother] at hconfiguration
      cases hconfiguration
  · cases hload : load host t path storage with
    | ok s => exact .inl ⟨s, rfl⟩
    | error e =>
      exact .inr ⟨e, rfl, (isConfiguration_or_escapes hholds hload).resolve_right
        fun hescapes => hnone ⟨e, hescapes⟩⟩

section BadByte

/-- A file with one byte that is in no UTF-8 text. -/
def badByte : ByteArray :=
  ⟨#[0xff]⟩

def badByteTree : FileTree :=
  { files := [(["d", "config.toml"], badByte)], folders := [["d"]] }

def badBytePath : Path :=
  ⟨.slash, ["d", "config.toml"]⟩

def badByteStorage : Storage :=
  { dataDir := ⟨.slash, ["d"]⟩ }

theorem badByte_holds : Holds {} badByteTree (some badBytePath) (some badByteStorage) badByte := by
  rintro s p ⟨-, ⟨⟩⟩
  rfl

theorem badByte_escapes :
    Holds {} badByteTree (some badBytePath) (some badByteStorage) badByte ∧
      Escapes {} (some badBytePath) (some badByteStorage) badByte .notUtf8 ∧
      load {} badByteTree (some badBytePath) (some badByteStorage) = .error .notUtf8 ∧
      SettingsError.notUtf8.isConfiguration = false := by
  have hescapes : Escapes {} (some badBytePath) (some badByteStorage) badByte .notUtf8 :=
    .notUtf8 ⟨rfl, rfl⟩ (by decide +kernel)
  exact ⟨badByte_holds, hescapes, (load_reports_or_escapes badByte_holds).2 _ hescapes⟩

/-- So not every bad configuration is reported as an error of the configuration. -/
theorem bad_byte_not_reported :
    ¬ ∀ (host : Host) (t : FileTree) (path : Option Path) (storage : Option Storage)
        (bytes : ByteArray), Holds host t path storage bytes →
      (∃ s, load host t path storage = .ok s) ∨
        ∃ e, load host t path storage = .error e ∧ e.isConfiguration := by
  intro h
  have hload : load {} badByteTree (some badBytePath) (some badByteStorage) = .error .notUtf8 := by
    decide +kernel
  obtain ⟨s, hs⟩ | ⟨e, he, hconfiguration⟩ := h _ _ _ _ _ badByte_holds
  · rw [hload] at hs
    cases hs
  · rw [hload] at he
    obtain rfl := Except.error.inj he
    cases hconfiguration

end BadByte

end Settings

end GalleryCatalog
