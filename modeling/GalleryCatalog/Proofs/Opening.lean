import GalleryCatalog.Proofs.Call

/-!
# Opening the database

An application that is bound to no database opens one. It may make directories and the file of
the database, and writes to no other file. The rows of a database that is there already are
found again, and a new one has none. When opening fails, no row has changed either.
-/

set_option autoImplicit false

namespace GalleryCatalog

namespace FileTree

/-! ## Directories -/

/-- The files are the same. -/
def SameFiles (t t' : FileTree) : Prop :=
  t'.files = t.files

instance : Std.Refl SameFiles where
  refl _ := rfl

instance : IsTrans FileTree SameFiles where
  trans _ _ _ h₁ h₂ := h₂.trans h₁

theorem makeFolder_files {t t' : FileTree} {l : Location} (h : t.makeFolder l = .ok t') :
    t'.files = t.files := by
  unfold makeFolder at h
  cases hl : t.locate [] (Path.ofLocation l) with
  | error e => simp [hl, bind, Except.bind] at h
  | ok l' =>
    simp only [hl, bind, Except.bind] at h
    split_ifs at h
    obtain rfl := Except.ok.inj h
    rfl

theorem ensureFolder_files (l : Location) : Work.Keeps SameFiles (ensureFolder l) := by
  intro t
  unfold ensureFolder Work.left
  dsimp only
  cases h : t.makeFolder l with
  | ok t' => exact makeFolder_files h
  | error e =>
    dsimp only
    split_ifs <;> exact rfl

theorem ensureUpwards_files (names : List String) :
    Work.Keeps SameFiles (ensureUpwards names) := by
  induction names with
  | nil => exact Work.pure_keeps ()
  | cons name above ih =>
    intro t
    have hfirst := ensureFolder_files (name :: above).reverse t
    have hagain : Work.Keeps SameFiles (do
        ensureUpwards above
        ensureFolder (name :: above).reverse) :=
      Work.bind_keeps ih fun _ => ensureFolder_files (name :: above).reverse
    unfold Work.left ensureUpwards
    unfold Work.left at hfirst
    cases h : ensureFolder (name :: above).reverse t with
    | ok _ t' =>
      rw [h] at hfirst
      exact hfirst
    | error f t' =>
      rw [h] at hfirst
      obtain ⟨e, path⟩ := f
      cases e with
      | notFound => exact (hagain t').trans hfirst
      | _ => exact hfirst

/-! ## The file of a database -/

/-- Every file but one is as it was. -/
def SameBut (l : Location) (t t' : FileTree) : Prop :=
  ∀ l', l' ≠ l → t'.content? l' = t.content? l'

theorem write_sameBut (t : FileTree) (l : Location) (bytes : ByteArray) :
    t.SameBut l (t.write l bytes) := by
  intro l' hne
  unfold content? write
  have hlast : [(l, bytes)].lookup l' = none := by
    simp [List.lookup_cons, beq_eq_false_iff_ne.mpr hne]
  rw [List.lookup_append, hlast, Option.or_none, lookup_filter_key (· != l)]
  simp [hne, addFolders]

end FileTree

namespace Database

open FileTree (SameBut)

theorem start_sameBut (l : Location) (use : FileUse) (t : FileTree) :
    t.SameBut l (Work.left (start l use) t) := by
  unfold start
  split
  · exact fun _ _ => rfl
  · split
    · exact fun _ _ => rfl
    · exact t.write_sameBut l header

/-- Either nothing is done, or an empty file is started, which may have been made before. -/
theorem create_cases (l : Location) (use : FileUse) (t : FileTree) :
    (∃ e, create l use t = .error e t) ∨ create l use t = start l use t ∨
      create l use t = start l use (t.write l .empty) := by
  unfold create
  rw [Work.get_bind_apply]
  cases t.content? l with
  | some bytes =>
    dsimp only
    split_ifs
    · exact .inl ⟨_, rfl⟩
    · exact .inl ⟨_, rfl⟩
    · exact .inr (.inl rfl)
  | none =>
    dsimp only
    split_ifs
    · exact .inl ⟨_, rfl⟩
    · exact .inl ⟨_, rfl⟩
    · exact .inr (.inr rfl)

theorem create_sameBut (l : Location) (use : FileUse) (t : FileTree) :
    t.SameBut l (Work.left (create l use) t) := by
  intro l' hne
  rcases create_cases l use t with ⟨e, h⟩ | h | h
  · rw [Work.left_of_error h]
  · unfold Work.left
    rw [h]
    exact start_sameBut l use t l' hne
  · unfold Work.left
    rw [h]
    exact (start_sameBut l use _ l' hne).trans (t.write_sameBut l .empty l' hne)

end Database

/-! ## Applications -/

namespace Application

variable {p q : Application} {e : Engine} {l : Location}

/-- Directories have been made, and nothing else. -/
def MakesFolders (p q : Application) : Prop :=
  ∃ tree, p.tree.SameFiles tree ∧ q = { p with tree := tree }

instance : Std.Refl MakesFolders where
  refl p := ⟨p.tree, rfl, rfl⟩

instance : IsTrans Application MakesFolders where
  trans _ _ _ := by
    rintro ⟨t₁, h₁, rfl⟩ ⟨t₂, h₂, rfl⟩
    exact ⟨t₂, h₂.trans h₁, rfl⟩

/-- Databases in files have the rows that they had. One that is new has none. -/
def SameRows (p q : Application) : Prop :=
  ∀ l, q.storeOf (.file l) = p.storeOf (.file l) ∨
    p.holdsStore l = false ∧ q.storeOf (.file l) = {}

/-- The rows are the same, and no file stopped being a database. -/
structure KeepsRows (p q : Application) : Prop where
  rows : p.SameRows q
  holds : ∀ l, p.holdsStore l = true → q.holdsStore l = true

theorem KeepsRows.then {p q r : Application} (h : p.KeepsRows q) (hq : q.SameRows r) :
    p.SameRows r := by
  intro l
  rcases hq l with hsame | ⟨hnone, hnew⟩
  · rw [hsame]
    exact h.rows l
  · refine .inr ⟨?_, hnew⟩
    rw [← Bool.not_eq_true] at hnone ⊢
    exact fun hl => hnone (h.holds l hl)

instance : Std.Refl KeepsRows where
  refl _ := ⟨fun _ => .inl rfl, fun _ => id⟩

instance : IsTrans Application KeepsRows where
  trans _ _ _ h₁ h₂ := ⟨h₁.then h₂.rows, fun l => h₂.holds l ∘ h₁.holds l⟩

/-- The rows that are found in a database. One in memory, and a file that holds none, are
new. -/
def rowsIn (p : Application) : Engine → Store
  | .memory _ => {}
  | .file l => if p.holdsStore l then p.storeOf (.file l) else {}

/-- A database is ready, with the rows that are found in it. -/
structure Finds (p q : Application) (e : Engine) : Prop where
  host : q.host = p.host
  rows : q.storeOf e = p.rowsIn e
  others : ∀ e', e' ≠ e → q.storeOf e' = p.storeOf e'
  files : ∀ l, e ≠ .file l → q.tree.content? l = p.tree.content? l

theorem holdsStore_congr (hstores : q.stores.lookup (.file l) = p.stores.lookup (.file l))
    (htree : q.tree.content? l = p.tree.content? l) : q.holdsStore l = p.holdsStore l := by
  simp only [holdsStore, Database.isMarked, hstores, htree]

theorem keepsRows_of (hstores : q.stores = p.stores)
    (htree : ∀ l, p.holdsStore l = true → q.tree.content? l = p.tree.content? l) :
    p.KeepsRows q where
  rows l := .inl (by simp only [storeOf, hstores])
  holds l hl := (holdsStore_congr (by rw [hstores]) (htree l hl)).trans hl

theorem MakesFolders.content? (h : p.MakesFolders q) (l : Location) :
    q.tree.content? l = p.tree.content? l := by
  obtain ⟨tree, htree, rfl⟩ := h
  unfold FileTree.content?
  rw [show tree.files = p.tree.files from htree]

theorem MakesFolders.keepsRows (h : p.MakesFolders q) : p.KeepsRows q := by
  refine keepsRows_of ?_ fun l _ => h.content? l
  obtain ⟨tree, -, rfl⟩ := h
  rfl

theorem MakesFolders.finds {r : Application} (h : p.MakesFolders q) (hq : q.Finds r e) :
    p.Finds r e := by
  have hcontent := h.content?
  obtain ⟨tree, htree, rfl⟩ := h
  refine ⟨hq.host, hq.rows.trans ?_, hq.others, fun l hl => (hq.files l hl).trans (hcontent l)⟩
  cases e with
  | memory n => rfl
  | file l =>
    have hholds : ({ p with tree } : Application).holdsStore l = p.holdsStore l :=
      holdsStore_congr rfl (hcontent l)
    simp only [rowsIn, hholds]
    rfl

end Application

namespace Action

open Application (MakesFolders KeepsRows Finds)

variable {p q : Application} {e : Engine}

theorem makeDataDir_makesFolders (l : Location) : Work.Keeps MakesFolders (makeDataDir l) := by
  intro p
  have hfiles := FileTree.ensureUpwards_files l.reverse p.tree
  unfold makeDataDir Work.left FileTree.ensureFolders
  unfold Work.left at hfiles
  dsimp only
  cases h : FileTree.ensureUpwards l.reverse p.tree <;> rw [h] at hfiles <;>
    exact ⟨_, hfiles, rfl⟩

theorem databaseUri_makesFolders (storage : Option Storage) :
    Work.Keeps MakesFolders (databaseUri storage) :=
  databaseUri_keeps makeDataDir_makesFolders storage

theorem createFile_keepsRows {l : Location} (use : FileUse) (h : ¬ p.holdsStore l = true) :
    p.KeepsRows (Work.left (createFile l use) p) := by
  have hne {l' : Location} (hl' : p.holdsStore l' = true) : l' ≠ l := fun hl => h (hl ▸ hl')
  have hfiles := Database.create_sameBut l use p.tree
  unfold createFile Work.left
  unfold Work.left at hfiles
  dsimp only
  cases hcreate : Database.create l use p.tree with
  | ok _ tree =>
    rw [hcreate] at hfiles
    refine ⟨fun l' => ?_, fun l' hl' => ?_⟩
    · rw [Application.storeOf_putStore]
      split_ifs with hl'
      · obtain rfl := Engine.file.inj hl'
        exact .inr ⟨eq_false_of_ne_true h, rfl⟩
      · exact .inl rfl
    · refine (Application.holdsStore_congr ?_ (hfiles l' (hne hl'))).trans hl'
      rw [Application.lookup_putStore, if_neg (by simpa using hne hl')]
  | error f tree =>
    rw [hcreate] at hfiles
    exact Application.keepsRows_of rfl fun l' hl' => hfiles l' (hne hl')

theorem openAddress_held {l : Location} (use : FileUse) (h : p.holdsStore l = true) :
    openAddress (.file l use) p = .ok (.file l) p := by
  unfold openAddress
  dsimp only
  rw [Work.get_bind_apply, if_neg (by simpa using h)]
  rfl

theorem openAddress_new {l : Location} (use : FileUse) (h : ¬ p.holdsStore l = true) :
    openAddress (.file l use) p = (createFile l use >>= fun _ => pure (.file l)) p := by
  unfold openAddress
  dsimp only
  rw [Work.get_bind_apply, if_pos h]

theorem openAddress_keepsRows (address : Address) :
    Work.Keeps KeepsRows (openAddress address) := by
  intro p
  cases address with
  | memory =>
    have hne (l : Location) : Engine.file l ≠ p.freshMemory := by simp [Application.freshMemory]
    have hlookup (l : Location) : (p.putStore p.freshMemory {}).stores.lookup (.file l) =
        p.stores.lookup (.file l) :=
      (p.lookup_putStore _ _ {}).trans (if_neg (hne l))
    exact ⟨fun l => .inl ((p.storeOf_putStore _ _ {}).trans (if_neg (hne l))), fun l hl =>
      (Application.holdsStore_congr (q := p.putStore p.freshMemory {}) (hlookup l) rfl).trans hl⟩
  | file l use =>
    by_cases h : p.holdsStore l = true
    · rw [Work.left_of_ok (openAddress_held use h)]
      exact Std.Refl.refl p
    · have hleft : Work.left (openAddress (.file l use)) p = Work.left (createFile l use) p := by
        rw [← Work.left_bind_pure (createFile l use) fun _ => Engine.file l]
        unfold Work.left
        rw [openAddress_new use h]
      rw [hleft]
      exact createFile_keepsRows use h

theorem openAddress_finds {address : Address} (h : openAddress address p = .ok e q) :
    p.Finds q e := by
  cases address with
  | memory =>
    obtain ⟨rfl, rfl⟩ := EStateM.Result.ok.inj h
    refine ⟨rfl, (p.storeOf_putStore _ _ {}).trans (if_pos rfl), fun e' he => ?_, fun _ _ => rfl⟩
    exact (p.storeOf_putStore _ e' {}).trans (if_neg he)
  | file l use =>
    by_cases hl : p.holdsStore l = true
    · rw [openAddress_held use hl] at h
      obtain ⟨rfl, rfl⟩ := EStateM.Result.ok.inj h
      exact ⟨rfl, by simp [Application.rowsIn, hl], fun _ _ => rfl, fun _ _ => rfl⟩
    · rw [openAddress_new use hl] at h
      obtain ⟨_, q', hcreate, hpure⟩ := Work.bind_eq_ok.mp h
      obtain ⟨rfl, rfl⟩ := Work.pure_eq_ok.mp hpure
      have hfiles := Database.create_sameBut l use p.tree
      unfold createFile at hcreate
      unfold Work.left at hfiles
      cases htree : Database.create l use p.tree with
      | error f tree => simp [htree] at hcreate
      | ok _ tree =>
        rw [htree] at hcreate hfiles
        obtain ⟨-, rfl⟩ := EStateM.Result.ok.inj hcreate
        refine ⟨rfl, ?_, fun e' he => ?_, fun l' hl' => hfiles l' (by simpa [eq_comm] using hl')⟩
        · rw [Application.storeOf_putStore, if_pos rfl]
          simp [Application.rowsIn, hl]
        · rw [Application.storeOf_putStore, if_neg he]
          rfl

/-- An application without a database opens one, with the rows that are found in it. -/
theorem engine_finds (hp : p.bound = none) (h : engine p = .ok e q) :
    q.bound = some e ∧ p.Finds q e := by
  unfold engine at h
  rw [Work.get_bind_apply, hp] at h
  obtain ⟨uri, p₁, huri, h⟩ := Work.bind_eq_ok.mp h
  rw [Work.get_bind_apply] at h
  obtain ⟨address, p₂, haddress, h⟩ := Work.bind_eq_ok.mp h
  obtain ⟨e', p₃, hopen, h⟩ := Work.bind_eq_ok.mp h
  obtain ⟨_, p₄, hbind, h⟩ := Work.bind_eq_ok.mp h
  obtain ⟨rfl, rfl⟩ := Work.pure_eq_ok.mp h
  obtain rfl := bind_eq_ok hbind
  have hfolders := databaseUri_makesFolders none p
  have hsame := ofExcept_keeps (R := Eq) Failure.database (Address.ofUri p₁.host.here uri) p₁
  rw [Work.left_of_ok huri] at hfolders
  rw [Work.left_of_ok haddress] at hsame
  obtain rfl := hsame
  have hfound := hfolders.finds (openAddress_finds hopen)
  exact ⟨rfl, hfound.host, hfound.rows, hfound.others, hfound.files⟩

theorem engine_keepsRows : Work.Keeps KeepsRows engine := by
  have huri (storage : Option Storage) : Work.Keeps KeepsRows (databaseUri storage) :=
    fun p => (databaseUri_makesFolders storage p).keepsRows
  have hbind (e : Engine) : Work.Keeps KeepsRows (Action.bind e false) := by
    intro p
    unfold Action.bind Work.left
    rw [Work.get_bind_apply]
    split_ifs <;> exact Application.keepsRows_of rfl fun _ _ => rfl
  apply Work.bind_keeps (R := KeepsRows) Work.get_keeps
  intro p
  split
  · exact Work.pure_keeps _
  · apply Work.bind_keeps (huri none)
    intro uri
    apply Work.bind_keeps (R := KeepsRows) Work.get_keeps
    intro p
    apply Work.bind_keeps (R := KeepsRows) (ofExcept_keeps _ _)
    intro address
    apply Work.bind_keeps (openAddress_keepsRows address)
    intro e
    apply Work.bind_keeps (hbind e)
    intro _
    exact Work.pure_keeps e

end Action

end GalleryCatalog
