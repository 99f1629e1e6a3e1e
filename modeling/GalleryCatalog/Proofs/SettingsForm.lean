import Mathlib.Data.List.Forall2
import Mathlib.Tactic.MkIffOfInductiveProp
import Mathlib.Tactic.SplitIfs
import GalleryCatalog.Settings

/-!
# Forms of configuration documents

What each item of a configuration document may be, and what it then stands for. A variable of the
environment that decides an item stands before the document. Each reading gives what its form
allows, and a document that is refused is refused for the first of its faults: those of the
tables, of the images directory, of the removal of files, of the path of the images, and of the
rules one by one.
-/

set_option autoImplicit false

namespace GalleryCatalog

/-! ## Flags of the environment -/

namespace Environment

/-- A variable that is not set, or to nothing but white space. -/
def Blank (env : Environment) (name : String) : Prop :=
  ∀ text, env.get? name = some text → Text.trim text = ""

def flagWords (value : Bool) : List String :=
  if value then trueWords else falseWords

/-- A variable that is set to a word for a flag, with white space around it. -/
def Says (env : Environment) (name : String) (value : Bool) : Prop :=
  ∃ text, env.get? name = some text ∧ lowerAscii (Text.trim text) ∈ flagWords value

theorem lowerAscii_eq_empty {s : String} : lowerAscii s = "" ↔ s = "" := by
  rw [← String.toList_eq_nil_iff, lowerAscii, String.toList_ofList, List.map_eq_nil_iff,
    String.toList_eq_nil_iff]

theorem flag_eq_unset {env : Environment} {name : String} :
    env.flag name = .unset ↔ env.Blank name := by
  unfold flag Blank
  cases env.get? name with
  | none => simp
  | some text =>
    simp only [Option.some.injEq, forall_eq', ← lowerAscii_eq_empty (s := Text.trim text)]
    split_ifs <;> simp_all

theorem not_empty_mem_flagWords (value : Bool) : "" ∉ flagWords value := by
  cases value <;> decide

theorem flagWords_disjoint {word : String} {a b : Bool} (ha : word ∈ flagWords a)
    (hb : word ∈ flagWords b) : a = b := by
  have hapart : ∀ w ∈ flagWords true, w ∉ flagWords false := by decide
  cases a <;> cases b
  · rfl
  · exact absurd ha (hapart word hb)
  · exact absurd hb (hapart word ha)
  · rfl

theorem flag_eq_flag {env : Environment} {name : String} {value : Bool} :
    env.flag name = .flag value ↔ env.Says name value := by
  unfold flag Says
  cases env.get? name with
  | none => simp
  | some text =>
    simp only [Option.some.injEq, exists_eq_left', List.contains_iff_mem]
    split_ifs with hempty htrue hfalse
    · simp [hempty, not_empty_mem_flagWords]
    · exact ⟨fun h => FlagText.flag.inj h ▸ htrue,
        fun h => by rw [flagWords_disjoint (b := true) h htrue]⟩
    · exact ⟨fun h => FlagText.flag.inj h ▸ hfalse,
        fun h => by rw [flagWords_disjoint (b := false) h hfalse]⟩
    · cases value <;> simpa [flagWords]

end Environment

namespace Settings

open Document (Value Entries)

/-! ## Readings -/

section Readings

variable {α β ι : Type}

/-- A reading gives exactly what a form allows, and else fails with the first of some faults. -/
structure Decides (x : Result α) (form : α → Prop) (faults : List SettingsError) : Prop where
  ok_iff : ∀ a, x = .ok a ↔ form a
  error_iff : ∀ e, x = .error e ↔ faults.head? = some e

variable {x : Result α} {form form' : α → Prop} {faults : List SettingsError}

theorem Decides.unique {y : Result α} (hx : Decides x form faults) (hy : Decides y form faults) :
    x = y := by
  cases h : x with
  | ok a => exact ((hy.ok_iff a).mpr ((hx.ok_iff a).mp h)).symm
  | error e => exact ((hy.error_iff e).mpr ((hx.error_iff e).mp h)).symm

theorem Decides.congr (h : Decides x form faults) (hform : ∀ a, form a ↔ form' a) :
    Decides x form' faults :=
  ⟨fun a => (h.ok_iff a).trans (hform a), h.error_iff⟩

theorem decides_ok {a : α} (ha : form a) (hunique : ∀ b, form b → b = a) :
    Decides (.ok a) form [] :=
  ⟨fun b => ⟨fun h => Except.ok.inj h ▸ ha, fun hb => by rw [hunique b hb]⟩, fun e => by simp⟩

theorem decides_error {e : SettingsError} (h : ∀ a, ¬ form a) : Decides (.error e) form [e] :=
  ⟨fun a => by simp [h a], fun e' => by simp⟩

theorem Decides.faults_eq_nil (h : Decides x form faults) : faults = [] ↔ ∃ a, form a := by
  simp only [← h.ok_iff]
  cases hx : x with
  | ok a =>
    have hnone : ∀ e, faults.head? ≠ some e := fun e he => by
      rw [← h.error_iff, hx] at he
      cases he
    simpa [List.head?_eq_none_iff] using Option.eq_none_iff_forall_ne_some.mpr hnone
  | error e =>
    have hhead := (h.error_iff e).mp hx
    have hsome : faults ≠ [] := fun hnil => by simp [hnil] at hhead
    simp [hsome]

/-- What is read from what was read fails for its own faults only where the first part has none. -/
theorem Decides.bind {f : α → Result β} {other : α → β → Prop} {more : List SettingsError}
    (hx : Decides x form faults) (hf : ∀ a, form a → Decides (f a) (other a) more) :
    Decides (x >>= f) (fun b => ∃ a, form a ∧ other a b) (faults ++ more) := by
  cases hout : x with
  | ok a =>
    have ha := (hx.ok_iff a).mp hout
    have hnil : faults = [] := hx.faults_eq_nil.mpr ⟨a, ha⟩
    have hfirst : ∀ a', form a' ↔ a' = a := by
      intro a'
      rw [← hx.ok_iff, hout]
      simp [eq_comm]
    refine ⟨fun b => ?_, fun e => ?_⟩
    · simp only [hfirst, exists_eq_left]
      exact (hf a ha).ok_iff b
    · rw [hnil, List.nil_append]
      exact (hf a ha).error_iff e
  | error e =>
    have hhead := (hx.error_iff e).mp hout
    refine ⟨fun b => ?_, fun e' => ?_⟩
    · have hnone : ∀ a, ¬ form a := fun a ha => by
        rw [← hx.ok_iff, hout] at ha
        cases ha
      simp [hnone, Except.bind, Bind.bind]
    · rw [List.head?_append, hhead]
      simp [Except.bind, Bind.bind]

theorem Decides.map {f : α → β} (h : Decides x form faults) :
    Decides (x >>= fun a => pure (f a)) (fun b => ∃ a, form a ∧ f a = b) faults := by
  have hpure := h.bind (f := fun a => pure (f a)) fun a _ => decides_ok rfl fun _ hb => hb.symm
  rwa [List.append_nil] at hpure

theorem mapM_decides {f : ι → Result α} {form : ι → α → Prop} {faults : ι → List SettingsError}
    (h : ∀ i, Decides (f i) (form i) (faults i)) (is : List ι) :
    Decides (is.mapM f) (List.Forall₂ form is) (is.flatMap faults) := by
  induction is with
  | nil =>
    rw [List.mapM_nil]
    exact decides_ok .nil fun as => List.forall₂_nil_left_iff.mp
  | cons i is ih =>
    rw [List.mapM_cons, List.flatMap_cons]
    refine ((h i).bind fun a _ => ih.map).congr fun as => ?_
    rw [List.forall₂_cons_left_iff]
    constructor
    · rintro ⟨a, ha, as, has, rfl⟩
      exact ⟨a, as, ha, has, rfl⟩
    · rintro ⟨a, as, ha, has, rfl⟩
      exact ⟨a, ha, as, has, rfl⟩

end Readings

/-! ## Kinds of values -/

/-- The entry of a table of a document, as far as both are there. -/
def entry (doc : Entries) (tableName name : String) : Option Value :=
  match doc.lookup tableName with
  | some (.table es) => es.lookup name
  | _ => none

def isTable (v : Value) : Bool :=
  (asTable v).isSome

def isText (v : Value) : Bool :=
  (asText v).isSome

/-- A text, or a name without a value. -/
def isOptionalText : Value → Bool
  | .missing => true
  | v => isText v

def isFlag : Value → Bool
  | .flag _ => true
  | _ => false

def isTables : Value → Bool
  | .array items => items.all isTable
  | _ => false

def isPattern : Value → Bool
  | .text s => s ≠ ""
  | _ => false

def isNames : Value → Bool
  | .array items => items.all isText
  | v => isText v

/-! ## Forms -/

inductive IsTable : Option Value → Entries → Prop
  | absent : IsTable none []
  | given (es : Entries) : IsTable (some (.table es)) es

inductive IsFlag : Option Value → Bool → Prop
  | absent : IsFlag none false
  | given (b : Bool) : IsFlag (some (.flag b)) b

inductive IsOptionalText : Option Value → Option String → Prop
  | absent : IsOptionalText none none
  | missing : IsOptionalText (some .missing) none
  | given (s : String) : IsOptionalText (some (.text s)) (some s)

/-- One name stands for the set of that name alone. -/
inductive IsNames : Option Value → List String → Prop
  | one (s : String) : IsNames (some (.text s)) [s]
  | many (names : List String) : IsNames (some (.array (names.map .text))) names

structure IsSourceRule (es : Entries) (r : SourceRule) : Prop where
  pattern : es.lookup "match" = some (.text r.pattern) ∧ r.pattern ≠ ""
  ignoreCase : IsFlag (es.lookup "ignore_case") r.ignoreCase
  name : IsOptionalText (es.lookup "name") r.name

structure IsTagRule (es : Entries) (r : TagRule) : Prop where
  names : IsNames (es.lookup "match") r.names
  ignoreCase : IsFlag (es.lookup "ignore_case") r.ignoreCase
  onlySpace : IsOptionalText (es.lookup "match_namespace") r.onlySpace
  space : IsOptionalText (es.lookup "namespace") r.space
  name : IsOptionalText (es.lookup "name") r.name

/-- An array of tables, each of which has the form of a rule. -/
inductive IsRules {ρ : Type} (form : Entries → ρ → Prop) : Option Value → List ρ → Prop
  | absent : IsRules form none []
  | given {tables : List Entries} {rs : List ρ} (h : List.Forall₂ form tables rs) :
      IsRules form (some (.array (tables.map .table))) rs

inductive NamesImages (env : Environment) (o : Option Value) : Option String → Prop
  | ofVariable {dir : String} (h : env.nonEmpty? "PAGEKEEPER_IMAGES_DIR" = some dir) :
      NamesImages env o (some dir)
  | ofDocument {named : Option String} (h : env.nonEmpty? "PAGEKEEPER_IMAGES_DIR" = none)
      (ho : IsOptionalText o named) : NamesImages env o named

inductive SaysRemoval (env : Environment) (o : Option Value) : Bool → Prop
  | ofVariable {b : Bool} (h : env.Says removalVariable b) : SaysRemoval env o b
  | ofDocument {b : Bool} (h : env.Blank removalVariable) (ho : IsFlag o b) : SaysRemoval env o b

def tableNames : List String := ["directories", "image", "metadata"]

/-- The settings that a document gives. -/
@[mk_iff]
structure Gives (host : Host) (storage : Storage) (doc : Entries) (s : Settings) : Prop where
  tables : ∀ name ∈ tableNames, ∃ es, IsTable (doc.lookup name) es
  images : ∃ named, NamesImages host.env (entry doc "directories" "images") named ∧
    imagesPath host storage named = .ok s.images
  removal : SaysRemoval host.env (entry doc "image" "remove_on_update") s.removeOnUpdate
  sources : IsRules IsSourceRule (entry doc "metadata" "source_mapping") s.sourceRules
  tags : IsRules IsTagRule (entry doc "metadata" "tag_mapping") s.tagRules

/-! ## Faults -/

def faultUnless (holds : Bool) (e : SettingsError) : List SettingsError :=
  if holds then [] else [e]

def flagFaults (rule : RulePlace) (es : Entries) (key : String) : List SettingsError :=
  faultUnless ((es.lookup key).all isFlag) (.notFlag rule key)

def textFaults (rule : RulePlace) (es : Entries) (key : String) : List SettingsError :=
  faultUnless ((es.lookup key).all isOptionalText) (.notText rule key)

def sourceFaults (rule : RulePlace) (es : Entries) : List SettingsError :=
  faultUnless ((es.lookup "match").any isPattern) (.badPattern rule) ++
    flagFaults rule es "ignore_case" ++ textFaults rule es "name"

def tagFaults (rule : RulePlace) (es : Entries) : List SettingsError :=
  faultUnless ((es.lookup "match").any isNames) (.badNames rule) ++
    flagFaults rule es "ignore_case" ++ textFaults rule es "match_namespace" ++
    textFaults rule es "namespace" ++ textFaults rule es "name"

/-- The tables of an array. -/
def tablesIn : Option Value → List Entries
  | some (.array items) => items.filterMap asTable
  | _ => []

def rulesFaults (list : RuleList) (faults : RulePlace → Entries → List SettingsError)
    (o : Option Value) : List SettingsError :=
  faultUnless (o.all isTables) (.notRules list) ++
    (tablesIn o).zipIdx.flatMap fun p => faults ⟨list, p.2⟩ p.1

def imagesFaults (env : Environment) (o : Option Value) : List SettingsError :=
  faultUnless ((env.nonEmpty? "PAGEKEEPER_IMAGES_DIR").isSome || o.all isOptionalText)
    .imagesNotText

def removalFaults (env : Environment) (o : Option Value) : List SettingsError :=
  match env.flag removalVariable with
  | .flag _ => []
  | .unknown text => [.unknownFlag removalVariable text]
  | .unset => faultUnless (o.all isFlag) .removalNotFlag

/-- The images directory that is named, where it is named rightly. -/
def imagesText (env : Environment) (o : Option Value) : Option String :=
  (env.nonEmpty? "PAGEKEEPER_IMAGES_DIR").or (o.bind asText)

def pathFaults (host : Host) (storage : Storage) (o : Option Value) : List SettingsError :=
  match imagesPath host storage (imagesText host.env o) with
  | .ok _ => []
  | .error e => [e]

/-- All faults of a document, in the order in which they are looked for. -/
def documentFaults (host : Host) (storage : Storage) (doc : Entries) : List SettingsError :=
  tableNames.flatMap (fun name => faultUnless ((doc.lookup name).all isTable) (.notTable name)) ++
    imagesFaults host.env (entry doc "directories" "images") ++
    removalFaults host.env (entry doc "image" "remove_on_update") ++
    pathFaults host storage (entry doc "directories" "images") ++
    rulesFaults .sources sourceFaults (entry doc "metadata" "source_mapping") ++
    rulesFaults .tags tagFaults (entry doc "metadata" "tag_mapping")

/-! ## Each reading decides its form -/

theorem faultUnless_eq_nil {holds : Bool} {e : SettingsError} :
    faultUnless holds e = [] ↔ holds = true := by
  cases holds <;> simp [faultUnless]

theorem table_decides (doc : Entries) (name : String) :
    Decides (table doc name) (IsTable (doc.lookup name))
      (faultUnless ((doc.lookup name).all isTable) (.notTable name)) := by
  unfold table
  cases doc.lookup name with
  | none => exact decides_ok .absent (by rintro _ ⟨⟩; rfl)
  | some v =>
    cases v with
    | table es => exact decides_ok (.given es) (by rintro _ ⟨⟩; rfl)
    | _ => exact decides_error (by rintro _ ⟨⟩)

theorem flagEntry_decides (rule : RulePlace) (es : Entries) (key : String) :
    Decides (flagEntry rule es key) (IsFlag (es.lookup key)) (flagFaults rule es key) := by
  unfold flagEntry flagFaults
  cases es.lookup key with
  | none => exact decides_ok .absent (by rintro _ ⟨⟩; rfl)
  | some v =>
    cases v with
    | flag b => exact decides_ok (.given b) (by rintro _ ⟨⟩; rfl)
    | _ => exact decides_error (by rintro _ ⟨⟩)

theorem optionalText_decides (rule : RulePlace) (es : Entries) (key : String) :
    Decides (optionalText rule es key) (IsOptionalText (es.lookup key))
      (textFaults rule es key) := by
  unfold optionalText textFaults
  cases es.lookup key with
  | none => exact decides_ok .absent (by rintro _ ⟨⟩; rfl)
  | some v =>
    cases v with
    | missing => exact decides_ok .missing (by rintro _ ⟨⟩; rfl)
    | text s => exact decides_ok (.given s) (by rintro _ ⟨⟩; rfl)
    | _ => exact decides_error (by rintro _ ⟨⟩)

theorem patternOf_decides (rule : RulePlace) (es : Entries) :
    Decides (patternOf rule es) (fun s => es.lookup "match" = some (.text s) ∧ s ≠ "")
      (faultUnless ((es.lookup "match").any isPattern) (.badPattern rule)) := by
  unfold patternOf
  cases es.lookup "match" with
  | none => exact decides_error (by simp)
  | some v =>
    cases v with
    | text s =>
      by_cases hs : s = ""
      · simpa [hs, isPattern, faultUnless] using decides_error (by simp_all)
      · simpa [hs, isPattern, faultUnless] using decides_ok (by simp_all) (by simp_all)
    | _ => exact decides_error (by simp)

section Items

variable {β : Type} {f : Value → Option β} {g : β → Value}

theorem mapM_eq_some_iff (h : ∀ v b, f v = some b ↔ v = g b) {vs : List Value} {bs : List β} :
    vs.mapM f = some bs ↔ vs = bs.map g := by
  induction vs generalizing bs with
  | nil => simp [eq_comm]
  | cons v vs ih => cases bs <;> simp [Option.bind_eq_some_iff, h, ih]

theorem isSome_mapM (vs : List Value) : (vs.mapM f).isSome = vs.all fun v => (f v).isSome := by
  induction vs with
  | nil => simp
  | cons v vs ih =>
    rw [List.mapM_cons, List.all_cons, ← ih]
    cases f v <;> cases vs.mapM f <;> rfl

theorem asTable_eq_some (v : Value) (es : Entries) : asTable v = some es ↔ v = .table es := by
  cases v <;> simp [asTable]

theorem asText_eq_some (v : Value) (s : String) : asText v = some s ↔ v = .text s := by
  cases v <;> simp [asText]

theorem items_decides {vs : List Value} {x : Result (List β)} {e : SettingsError}
    (h : ∀ v b, f v = some b ↔ v = g b) (hok : ∀ bs, vs.mapM f = some bs → x = .ok bs)
    (herror : vs.mapM f = none → x = .error e) :
    Decides x (fun bs => vs = bs.map g) (faultUnless (vs.all fun v => (f v).isSome) e) := by
  rw [← isSome_mapM]
  simp only [← mapM_eq_some_iff h]
  cases hvs : vs.mapM f with
  | some bs => exact hok bs hvs ▸ decides_ok rfl fun _ hbs => (Option.some.inj hbs).symm
  | none => exact herror hvs ▸ decides_error (by simp)

end Items

theorem namesOf_decides (rule : RulePlace) (es : Entries) :
    Decides (namesOf rule es) (IsNames (es.lookup "match"))
      (faultUnless ((es.lookup "match").any isNames) (.badNames rule)) := by
  unfold namesOf
  cases es.lookup "match" with
  | none => exact decides_error (by rintro _ ⟨⟩)
  | some v =>
    cases v with
    | text s => exact decides_ok (.one s) (by rintro _ ⟨⟩; rfl)
    | array items =>
      have hform (names : List String) :
          items = names.map .text ↔ IsNames (some (.array items)) names :=
        ⟨by rintro rfl; exact .many names, by rintro ⟨⟩; rfl⟩
      exact (items_decides asText_eq_some (fun _ h => by simp [h])
        fun h => by simp [h]).congr hform
    | _ => exact decides_error (by rintro _ ⟨⟩)

theorem sourceRule_decides (rule : RulePlace) (es : Entries) :
    Decides (sourceRule rule es) (IsSourceRule es) (sourceFaults rule es) := by
  have hread := (patternOf_decides rule es).bind fun pattern _ =>
    (flagEntry_decides rule es "ignore_case").bind fun ignoreCase _ =>
      (optionalText_decides rule es "name").map
        (f := fun name => { pattern, ignoreCase, name : SourceRule })
  rw [← List.append_assoc] at hread
  refine hread.congr fun r => ⟨?_, fun hr => ⟨_, hr.pattern, _, hr.ignoreCase, _, hr.name, rfl⟩⟩
  rintro ⟨pattern, hpattern, ignoreCase, hcase, name, hname, rfl⟩
  exact ⟨hpattern, hcase, hname⟩

theorem tagRule_decides (rule : RulePlace) (es : Entries) :
    Decides (tagRule rule es) (IsTagRule es) (tagFaults rule es) := by
  have hread := (namesOf_decides rule es).bind fun names _ =>
    (flagEntry_decides rule es "ignore_case").bind fun ignoreCase _ =>
      (optionalText_decides rule es "match_namespace").bind fun onlySpace _ =>
        (optionalText_decides rule es "namespace").bind fun space _ =>
          (optionalText_decides rule es "name").map
            (f := fun name => { names, ignoreCase, onlySpace, space, name : TagRule })
  simp only [← List.append_assoc] at hread
  refine hread.congr fun r => ⟨?_, fun hr =>
    ⟨_, hr.names, _, hr.ignoreCase, _, hr.onlySpace, _, hr.space, _, hr.name, rfl⟩⟩
  rintro ⟨names, hnames, ignoreCase, hcase, onlySpace, honly, space, hspace, name, hname, rfl⟩
  exact ⟨hnames, hcase, honly, hspace, hname⟩

section Rules

variable {ρ : Type} {read : RulePlace → Entries → Result ρ} {form : Entries → ρ → Prop}
  {faults : RulePlace → Entries → List SettingsError}

/-- The entries of a list of rules have a form when the list is an array of tables. -/
theorem ruleEntries_decides (metadata : Entries) (list : RuleList) :
    Decides (ruleEntries metadata list) (IsRules Eq (metadata.lookup list.key))
      (faultUnless ((metadata.lookup list.key).all isTables) (.notRules list)) := by
  unfold ruleEntries
  cases metadata.lookup list.key with
  | none => exact decides_ok .absent (by rintro _ ⟨⟩; rfl)
  | some v =>
    cases v with
    | array items =>
      have hform (tables : List Entries) :
          items = tables.map .table ↔ IsRules Eq (some (.array items)) tables := by
        constructor
        · rintro rfl
          exact .given (List.forall₂_refl tables)
        · rintro (_ | h)
          rw [List.forall₂_eq_eq_eq] at h
          rw [h]
      exact (items_decides asTable_eq_some (fun _ h => by simp [h])
        fun h => by simp [h]).congr hform
    | _ => exact decides_error (by rintro _ ⟨⟩)

theorem isRules_iff {o : Option Value} {rs : List ρ} :
    IsRules form o rs ↔ ∃ tables, IsRules Eq o tables ∧ List.Forall₂ form tables rs := by
  constructor
  · rintro (_ | h)
    · exact ⟨[], .absent, .nil⟩
    · exact ⟨_, .given (List.forall₂_refl _), h⟩
  · rintro ⟨tables, _ | htables, h⟩
    · rw [List.forall₂_nil_left_iff.mp h]
      exact .absent
    · rw [List.forall₂_eq_eq_eq] at htables
      exact .given (htables ▸ h)

theorem IsRules.tablesIn_eq {o : Option Value} {tables : List Entries} (h : IsRules Eq o tables) :
    tablesIn o = tables := by
  cases h with
  | absent => rfl
  | given h =>
    rw [List.forall₂_eq_eq_eq] at h
    rw [← h, tablesIn, List.filterMap_map]
    exact List.filterMap_some

theorem rules_decides (hread : ∀ rule es, Decides (read rule es) (form es) (faults rule es))
    (list : RuleList) (metadata : Entries) :
    Decides (rules list read metadata) (IsRules form (metadata.lookup list.key))
      (rulesFaults list faults (metadata.lookup list.key)) := by
  refine ((ruleEntries_decides metadata list).bind fun tables htables => ?_).congr fun rs =>
    isRules_iff.symm
  rw [htables.tablesIn_eq]
  refine (mapM_decides (fun p : Entries × Nat => hread ⟨list, p.2⟩ p.1) tables.zipIdx).congr
    fun rs => ?_
  rw [← List.forall₂_map_left_iff (f := Prod.fst), List.zipIdx_map_fst]

end Rules

section Whole

variable {env : Environment} {o : Option Value}

theorem IsTable.lookup_eq {doc es : Entries} {name : String} (h : IsTable (doc.lookup name) es)
    (key : String) : es.lookup key = entry doc name key := by
  unfold entry
  generalize doc.lookup name = o at h
  cases h <;> rfl

theorem NamesImages.eq_imagesText {named : Option String} (h : NamesImages env o named) :
    named = imagesText env o := by
  cases h with
  | ofVariable h => simp [imagesText, h]
  | ofDocument h ho => cases ho <;> simp [imagesText, h, asText]

theorem namedImages_decides (env : Environment) (directories : Entries) :
    Decides (namedImages env directories) (NamesImages env (directories.lookup "images"))
      (imagesFaults env (directories.lookup "images")) := by
  unfold namedImages imagesFaults
  generalize directories.lookup "images" = o
  have hunique {named named' : Option String} (h : NamesImages env o named)
      (h' : NamesImages env o named') : named' = named :=
    h'.eq_imagesText.trans h.eq_imagesText.symm
  cases hdir : env.nonEmpty? "PAGEKEEPER_IMAGES_DIR" with
  | some dir => exact decides_ok (.ofVariable hdir) fun _ => hunique (.ofVariable hdir)
  | none =>
    have hok {named : Option String} (ho : IsOptionalText o named) :
        Decides (.ok named) (NamesImages env o) [] :=
      decides_ok (.ofDocument hdir ho) fun _ => hunique (.ofDocument hdir ho)
    cases o with
    | none => exact hok .absent
    | some v =>
      cases v with
      | missing => exact hok .missing
      | text s => exact hok (.given s)
      | _ => exact decides_error (by rintro _ (h | ⟨_, ⟨⟩⟩); simp [hdir] at h)

theorem saysRemoval_iff {b : Bool} :
    SaysRemoval env o b ↔ env.flag removalVariable = .flag b ∨
      env.flag removalVariable = .unset ∧ IsFlag o b := by
  rw [Environment.flag_eq_flag, Environment.flag_eq_unset]
  constructor
  · rintro (h | ⟨h, ho⟩)
    · exact .inl h
    · exact .inr ⟨h, ho⟩
  · rintro (h | ⟨h, ho⟩)
    · exact .ofVariable h
    · exact .ofDocument h ho

theorem removal_decides (env : Environment) (image : Entries) :
    Decides (removal env image) (SaysRemoval env (image.lookup "remove_on_update"))
      (removalFaults env (image.lookup "remove_on_update")) := by
  unfold removal removalFaults
  refine Decides.congr ?_ fun _ => saysRemoval_iff.symm
  cases env.flag removalVariable with
  | flag b => exact decides_ok (.inl rfl) (by simp [eq_comm])
  | unknown text => exact decides_error (by simp)
  | unset =>
    have hform (b : Bool) : IsFlag (image.lookup "remove_on_update") b ↔
        FlagText.unset = .flag b ∨ FlagText.unset = .unset ∧
          IsFlag (image.lookup "remove_on_update") b := by simp
    refine Decides.congr ?_ hform
    cases image.lookup "remove_on_update" with
    | none => exact decides_ok .absent (by rintro _ ⟨⟩; rfl)
    | some v =>
      cases v with
      | flag b => exact decides_ok (.given b) (by rintro _ ⟨⟩; rfl)
      | _ => exact decides_error (by rintro _ ⟨⟩)

theorem imagesPath_decides (host : Host) (storage : Storage) {named : Option String}
    (h : NamesImages host.env o named) :
    Decides (imagesPath host storage named) (imagesPath host storage named = .ok ·)
      (pathFaults host storage o) := by
  rw [pathFaults, ← h.eq_imagesText]
  cases imagesPath host storage named with
  | ok p => exact decides_ok rfl fun _ hp => (Except.ok.inj hp).symm
  | error e => exact decides_error (by simp)

theorem ofDocument_decides (host : Host) (storage : Storage) (doc : Entries) :
    Decides (ofDocument host storage doc) (Gives host storage doc)
      (documentFaults host storage doc) := by
  have hread :=
    (table_decides doc "directories").bind fun directories hdirectories =>
    (table_decides doc "image").bind fun image himage =>
    (table_decides doc "metadata").bind fun metadata hmetadata =>
    (hdirectories.lookup_eq "images" ▸
      namedImages_decides host.env directories).bind fun named hnamed =>
    (himage.lookup_eq "remove_on_update" ▸
      removal_decides host.env image).bind fun removeOnUpdate _ =>
    (imagesPath_decides host storage hnamed).bind fun images _ =>
    (hmetadata.lookup_eq "source_mapping" ▸
      rules_decides sourceRule_decides .sources metadata).bind fun sourceRules _ =>
    (hmetadata.lookup_eq "tag_mapping" ▸ rules_decides tagRule_decides .tags metadata).map
      (f := fun tagRules => { images, removeOnUpdate, sourceRules, tagRules : Settings })
  simp only [documentFaults, tableNames, List.flatMap_cons, List.flatMap_nil, List.append_nil,
    List.append_assoc]
  refine hread.congr fun s => ⟨?_, fun hs => ?_⟩
  · rintro ⟨directories, hdirectories, image, himage, metadata, hmetadata, named, hnamed, remove,
      hremove, images, himages, sources, hsources, tags, htags, rfl⟩
    refine ⟨?_, ⟨named, hnamed, himages⟩, hremove, hsources, htags⟩
    simp only [tableNames, List.forall_mem_cons, List.not_mem_nil, false_implies, implies_true,
      and_true]
    exact ⟨⟨_, hdirectories⟩, ⟨_, himage⟩, ⟨_, hmetadata⟩⟩
  · obtain ⟨directories, hdirectories⟩ := hs.tables "directories" (by simp [tableNames])
    obtain ⟨image, himage⟩ := hs.tables "image" (by simp [tableNames])
    obtain ⟨metadata, hmetadata⟩ := hs.tables "metadata" (by simp [tableNames])
    obtain ⟨named, hnamed, himages⟩ := hs.images
    exact ⟨directories, hdirectories, image, himage, metadata, hmetadata, named, hnamed, _,
      hs.removal, _, himages, _, hs.sources, _, hs.tags, rfl⟩

end Whole

end Settings

end GalleryCatalog
