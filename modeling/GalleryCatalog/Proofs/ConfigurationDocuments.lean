import GalleryCatalog.Proofs.SettingsForm

/-!
# Configuration documents

A document gives settings when every item in it that the environment does not decide has its kind,
and the images directory that is named leads to a path. The settings then hold one rule for each
entry of the lists of rules, in their order. Any other document is refused, and the error names
the first item that is wrong. What the environment decides is not looked for in the document.
-/

set_option autoImplicit false

namespace GalleryCatalog

/-! ## What an error names -/

namespace SettingsError

/-- The item that an error is about, where it is about the environment or a document. -/
def item? : SettingsError → Option String
  | .notTable name => some name
  | .imagesNotText => some "directories.images"
  | .unknownFlag name _ => some name
  | .removalNotFlag => some "image.remove_on_update"
  | .notRules list => some ("metadata." ++ list.key)
  | .badPattern rule | .badNames rule => some (rule.text ++ ".match")
  | .notFlag rule key | .notText rule key => some (rule.text ++ "." ++ key)
  | _ => none

/-- An item stands somewhere in a text. -/
def Within (item text : String) : Prop :=
  ∃ before after, text = before ++ item ++ after

theorem within_append (item after : String) : Within item (item ++ after) :=
  ⟨"", after, by rw [String.empty_append]⟩

theorem item_within_message {e : SettingsError} {item : String} (h : e.item? = some item) :
    Within item e.message := by
  have hmatch (rule : RulePlace) (rest : String) :
      Within (rule.text ++ ".match") (rule.text ++ (".match" ++ rest)) := by
    rw [← String.append_assoc]
    exact within_append _ _
  cases e with
  | notTable name =>
    obtain rfl := Option.some.inj h
    exact ⟨"[", "] must be a table", rfl⟩
  | imagesNotText =>
    obtain rfl := Option.some.inj h
    exact within_append _ " must be a string path"
  | unknownFlag name text =>
    obtain rfl := Option.some.inj h
    exact ⟨_, _, String.append_assoc⟩
  | removalNotFlag =>
    obtain rfl := Option.some.inj h
    exact within_append _ " must be a boolean"
  | badPattern rule =>
    obtain rfl := Option.some.inj h
    exact hmatch rule " must be a non-empty string"
  | badNames rule =>
    obtain rfl := Option.some.inj h
    exact hmatch rule " must be a string or an array of strings"
  | notRules list =>
    obtain rfl := Option.some.inj h
    exact within_append _ _
  | notFlag rule key | notText rule key =>
    obtain rfl := Option.some.inj h
    exact within_append _ _
  | _ => cases h

end SettingsError

namespace Settings

open Document (Value Entries)

/-! ## Documents that are right -/

@[mk_iff]
structure RightSource (es : Entries) : Prop where
  pattern : (es.lookup "match").any isPattern
  ignoreCase : (es.lookup "ignore_case").all isFlag
  name : (es.lookup "name").all isOptionalText

@[mk_iff]
structure RightTag (es : Entries) : Prop where
  names : (es.lookup "match").any isNames
  ignoreCase : (es.lookup "ignore_case").all isFlag
  onlySpace : (es.lookup "match_namespace").all isOptionalText
  space : (es.lookup "namespace").all isOptionalText
  name : (es.lookup "name").all isOptionalText

/-- Every item of a document that the environment does not decide has its kind, and the
environment decides by a word for a flag. -/
structure Right (env : Environment) (doc : Entries) : Prop where
  tables : ∀ name ∈ tableNames, (doc.lookup name).all isTable
  images : (env.nonEmpty? "PAGEKEEPER_IMAGES_DIR").isSome ∨
    (entry doc "directories" "images").all isOptionalText
  removal : (∃ b, env.Says removalVariable b) ∨
    env.Blank removalVariable ∧ (entry doc "image" "remove_on_update").all isFlag
  sources : (entry doc "metadata" "source_mapping").all isTables ∧
    ∀ es ∈ tablesIn (entry doc "metadata" "source_mapping"), RightSource es
  tags : (entry doc "metadata" "tag_mapping").all isTables ∧
    ∀ es ∈ tablesIn (entry doc "metadata" "tag_mapping"), RightTag es

/-- The images directory that is named leads to a path. -/
def Expands (host : Host) (storage : Storage) (doc : Entries) : Prop :=
  ∃ p, imagesPath host storage (imagesText host.env (entry doc "directories" "images")) = .ok p

theorem sourceFaults_eq_nil (rule : RulePlace) (es : Entries) :
    sourceFaults rule es = [] ↔ RightSource es := by
  simp only [sourceFaults, flagFaults, textFaults, List.append_eq_nil_iff, faultUnless_eq_nil,
    rightSource_iff, and_assoc]

theorem tagFaults_eq_nil (rule : RulePlace) (es : Entries) :
    tagFaults rule es = [] ↔ RightTag es := by
  simp only [tagFaults, flagFaults, textFaults, List.append_eq_nil_iff, faultUnless_eq_nil,
    rightTag_iff, and_assoc]

theorem rulesFaults_eq_nil {faults : RulePlace → Entries → List SettingsError}
    {right : Entries → Prop} (h : ∀ rule es, faults rule es = [] ↔ right es) {list : RuleList}
    {o : Option Value} :
    rulesFaults list faults o = [] ↔ o.all isTables ∧ ∀ es ∈ tablesIn o, right es := by
  rw [rulesFaults, List.append_eq_nil_iff, faultUnless_eq_nil, List.flatMap_eq_nil_iff]
  refine and_congr_right fun _ => ?_
  simp only [h]
  rw [← List.forall_mem_map, List.zipIdx_map_fst]

theorem removalFaults_eq_nil {env : Environment} {o : Option Value} :
    removalFaults env o = [] ↔ (∃ b, env.Says removalVariable b) ∨
      env.Blank removalVariable ∧ o.all isFlag := by
  simp only [← Environment.flag_eq_flag, ← Environment.flag_eq_unset]
  unfold removalFaults
  cases env.flag removalVariable <;> simp [faultUnless_eq_nil]

theorem pathFaults_eq_nil {host : Host} {storage : Storage} {doc : Entries} :
    pathFaults host storage (entry doc "directories" "images") = [] ↔ Expands host storage doc := by
  unfold pathFaults Expands
  split <;> simp_all

theorem documentFaults_eq_nil {host : Host} {storage : Storage} {doc : Entries} :
    documentFaults host storage doc = [] ↔ Right host.env doc ∧ Expands host storage doc := by
  have himages : imagesFaults host.env (entry doc "directories" "images") = [] ↔
      (host.env.nonEmpty? "PAGEKEEPER_IMAGES_DIR").isSome ∨
        (entry doc "directories" "images").all isOptionalText := by
    rw [imagesFaults, faultUnless_eq_nil, Bool.or_eq_true]
  simp only [documentFaults, List.append_eq_nil_iff, List.flatMap_eq_nil_iff, faultUnless_eq_nil,
    himages, removalFaults_eq_nil, pathFaults_eq_nil, rulesFaults_eq_nil sourceFaults_eq_nil,
    rulesFaults_eq_nil tagFaults_eq_nil]
  constructor
  · rintro ⟨⟨⟨⟨⟨htables, himages⟩, hremoval⟩, hpath⟩, hsources⟩, htags⟩
    exact ⟨⟨htables, himages, hremoval, hsources, htags⟩, hpath⟩
  · rintro ⟨⟨htables, himages, hremoval, hsources, htags⟩, hpath⟩
    exact ⟨⟨⟨⟨⟨htables, himages⟩, hremoval⟩, hpath⟩, hsources⟩, htags⟩

theorem isSome_item_of_mem_faultUnless {holds : Bool} {e e' : SettingsError}
    (hitem : e'.item?.isSome) (h : e ∈ faultUnless holds e') : e.item?.isSome := by
  cases holds
  · rwa [List.mem_singleton.mp h]
  · cases h

theorem isSome_item_of_mem_sourceFaults {rule : RulePlace} {es : Entries} {e : SettingsError}
    (h : e ∈ sourceFaults rule es) : e.item?.isSome := by
  simp only [sourceFaults, flagFaults, textFaults, List.mem_append] at h
  obtain (h | h) | h := h <;> exact isSome_item_of_mem_faultUnless rfl h

theorem isSome_item_of_mem_tagFaults {rule : RulePlace} {es : Entries} {e : SettingsError}
    (h : e ∈ tagFaults rule es) : e.item?.isSome := by
  simp only [tagFaults, flagFaults, textFaults, List.mem_append] at h
  obtain (((h | h) | h) | h) | h := h <;> exact isSome_item_of_mem_faultUnless rfl h

theorem isSome_item_of_mem_rulesFaults {list : RuleList} {o : Option Value} {e : SettingsError}
    {faults : RulePlace → Entries → List SettingsError}
    (hfaults : ∀ {rule es}, e ∈ faults rule es → e.item?.isSome)
    (h : e ∈ rulesFaults list faults o) : e.item?.isSome := by
  rw [rulesFaults, List.mem_append, List.mem_flatMap] at h
  obtain h | ⟨p, -, h⟩ := h
  · exact isSome_item_of_mem_faultUnless rfl h
  · exact hfaults h

theorem isSome_item_of_mem_removalFaults {env : Environment} {o : Option Value} {e : SettingsError}
    (h : e ∈ removalFaults env o) : e.item?.isSome := by
  unfold removalFaults at h
  split at h
  · cases h
  · rw [List.mem_singleton.mp h]
    rfl
  · exact isSome_item_of_mem_faultUnless rfl h

/-- Every fault of a document but that of the path is about an item that it names. -/
theorem isSome_item_of_mem {host : Host} {storage : Storage} {doc : Entries} {e : SettingsError}
    (h : e ∈ documentFaults host storage doc) :
    e.item?.isSome ∨ e ∈ pathFaults host storage (entry doc "directories" "images") := by
  simp only [documentFaults, List.mem_append, List.mem_flatMap] at h
  obtain ((((⟨name, -, h⟩ | h) | h) | h) | h) | h := h
  · exact .inl (isSome_item_of_mem_faultUnless rfl h)
  · exact .inl (isSome_item_of_mem_faultUnless rfl h)
  · exact .inl (isSome_item_of_mem_removalFaults h)
  · exact .inr h
  · exact .inl (isSome_item_of_mem_rulesFaults isSome_item_of_mem_sourceFaults h)
  · exact .inl (isSome_item_of_mem_rulesFaults isSome_item_of_mem_tagFaults h)

/-! ## What the environment decides -/

/-- An entry of a document that a variable of the environment stands before. -/
inductive DecidedBy (env : Environment) : String → String → Prop
  | images (h : (env.nonEmpty? "PAGEKEEPER_IMAGES_DIR").isSome) :
      DecidedBy env "directories" "images"
  | removal (h : ¬ env.Blank removalVariable) : DecidedBy env "image" "remove_on_update"

/-- Two documents that differ in one entry of a table at most. -/
structure SameBut (tableName name : String) (doc doc' : Entries) : Prop where
  tables : ∀ n, (doc.lookup n).all isTable = (doc'.lookup n).all isTable
  entries : ∀ n key, (n, key) ≠ (tableName, name) → entry doc n key = entry doc' n key

section Decided

variable {host : Host} {storage : Storage} {o o' : Option Value}

/-- Two entries from which the same images directory is read, or refused alike. -/
structure SameImages (host : Host) (storage : Storage) (o o' : Option Value) : Prop where
  named : ∀ named, NamesImages host.env o named ↔ NamesImages host.env o' named
  faults : imagesFaults host.env o = imagesFaults host.env o'
  path : pathFaults host storage o = pathFaults host storage o'

/-- Two entries from which the same removal is read, or refused alike. -/
structure SameRemoval (env : Environment) (o o' : Option Value) : Prop where
  value : ∀ b, SaysRemoval env o b ↔ SaysRemoval env o' b
  faults : removalFaults env o = removalFaults env o'

theorem SameImages.of_eq (h : o = o') : SameImages host storage o o' :=
  h ▸ ⟨fun _ => Iff.rfl, rfl, rfl⟩

theorem SameRemoval.of_eq {env : Environment} (h : o = o') : SameRemoval env o o' :=
  h ▸ ⟨fun _ => Iff.rfl, rfl⟩

theorem namesImages_iff_of_variable {env : Environment} {dir : String}
    (h : env.nonEmpty? "PAGEKEEPER_IMAGES_DIR" = some dir) {named : Option String} :
    NamesImages env o named ↔ named = some dir := by
  constructor
  · rintro (h' | ⟨hnone, -⟩)
    · rw [← h', h]
    · rw [h] at hnone
      cases hnone
  · rintro rfl
    exact .ofVariable h

theorem sameImages_of_variable (h : (host.env.nonEmpty? "PAGEKEEPER_IMAGES_DIR").isSome) :
    SameImages host storage o o' := by
  obtain ⟨dir, hdir⟩ := Option.isSome_iff_exists.mp h
  refine ⟨fun named => ?_, ?_, ?_⟩
  · rw [namesImages_iff_of_variable hdir, namesImages_iff_of_variable hdir]
  · simp [imagesFaults, hdir]
  · simp [pathFaults, imagesText, hdir]

theorem sameRemoval_of_variable {env : Environment} (h : ¬ env.Blank removalVariable) :
    SameRemoval env o o' := by
  rw [← Environment.flag_eq_unset] at h
  refine ⟨fun b => by simp [saysRemoval_iff, h], ?_⟩
  unfold removalFaults
  cases hflag : env.flag removalVariable with
  | unset => exact absurd hflag h
  | flag b | unknown text => rfl

variable {doc doc' : Entries}

/-- Settings depend on what is read of the images and the removal, and on the other entries. -/
theorem ofDocument_congr (htables : ∀ n, (doc.lookup n).all isTable = (doc'.lookup n).all isTable)
    (himages : SameImages host storage (entry doc "directories" "images")
      (entry doc' "directories" "images"))
    (hremoval : SameRemoval host.env (entry doc "image" "remove_on_update")
      (entry doc' "image" "remove_on_update"))
    (hmetadata : ∀ key, entry doc "metadata" key = entry doc' "metadata" key) :
    ofDocument host storage doc = ofDocument host storage doc' := by
  have hopens (n : String) :
      (∃ es, IsTable (doc.lookup n) es) ↔ ∃ es, IsTable (doc'.lookup n) es := by
    rw [← (table_decides doc n).faults_eq_nil, ← (table_decides doc' n).faults_eq_nil, htables]
  have hgives (s : Settings) : Gives host storage doc' s ↔ Gives host storage doc s := by
    simp only [gives_iff, hopens, himages.named, hremoval.value, hmetadata]
  have hfaults : documentFaults host storage doc' = documentFaults host storage doc := by
    simp only [documentFaults, htables, himages.faults, himages.path, hremoval.faults, hmetadata]
  exact (ofDocument_decides host storage doc).unique
    (hfaults ▸ (ofDocument_decides host storage doc').congr hgives)

theorem ofDocument_eq_of_decidedBy {tableName name : String}
    (hdecided : DecidedBy host.env tableName name) (h : SameBut tableName name doc doc') :
    ofDocument host storage doc = ofDocument host storage doc' := by
  cases hdecided with
  | images hset =>
    exact ofDocument_congr h.tables (sameImages_of_variable hset)
      (.of_eq (h.entries _ _ (by decide))) fun key => h.entries _ _ (by simp)
  | removal hset =>
    exact ofDocument_congr h.tables (.of_eq (h.entries _ _ (by decide)))
      (sameRemoval_of_variable hset) fun key => h.entries _ _ (by simp)

end Decided

/-- A document gives settings exactly when it is right, and then those that it says. Otherwise the
error is that of its first fault, and names the item. -/
theorem decodes_right_documents (host : Host) (storage : Storage) (doc : Entries) :
    ((∃ s, ofDocument host storage doc = .ok s) ↔
        Right host.env doc ∧ Expands host storage doc) ∧
      (∀ s, ofDocument host storage doc = .ok s ↔ Gives host storage doc s) ∧
      (∀ e, ofDocument host storage doc = .error e ↔
        (documentFaults host storage doc).head? = some e) ∧
      (Expands host storage doc → ∀ e, ofDocument host storage doc = .error e →
        ∃ item, e.item? = some item ∧ SettingsError.Within item e.message) ∧
      ∀ tableName name doc', DecidedBy host.env tableName name →
        SameBut tableName name doc doc' →
        ofDocument host storage doc = ofDocument host storage doc' := by
  have hread := ofDocument_decides host storage doc
  refine ⟨?_, hread.ok_iff, hread.error_iff, fun hexpands e he => ?_,
    fun tableName name doc' hdecided h => ofDocument_eq_of_decidedBy hdecided h⟩
  · rw [← documentFaults_eq_nil, hread.faults_eq_nil]
    exact exists_congr hread.ok_iff
  · have hmem := List.mem_of_mem_head? ((hread.error_iff e).mp he)
    have hitem : e.item?.isSome := by
      refine (isSome_item_of_mem hmem).resolve_right fun hpath => ?_
      rw [pathFaults_eq_nil.mpr hexpands] at hpath
      cases hpath
    obtain ⟨item, hitem⟩ := Option.isSome_iff_exists.mp hitem
    exact ⟨item, hitem, SettingsError.item_within_message hitem⟩

section Variable

/-- A host on which a variable names the images directory. -/
def namingHost : Host :=
  { env := { bindings := [("PAGEKEEPER_IMAGES_DIR", "/gallery")] } }

def dataStorage : Storage :=
  { dataDir := ⟨.slash, ["data"]⟩ }

/-- A number in place of the images directory. -/
def numberForImages : Entries :=
  [("directories", .table [("images", .integer 3)])]

/-- Behind a variable a number is as good as no entry. In place of a table it is refused by name. -/
theorem number_for_images_ignored :
    DecidedBy namingHost.env "directories" "images" ∧
      SameBut "directories" "images" numberForImages [] ∧
      ofDocument namingHost dataStorage numberForImages = ofDocument namingHost dataStorage [] ∧
      Expands namingHost dataStorage [("image", .integer 1)] ∧
      ofDocument namingHost dataStorage [("image", .integer 1)] = .error (.notTable "image") ∧
      SettingsError.Within "image" (SettingsError.notTable "image").message := by
  have hdecided : DecidedBy namingHost.env "directories" "images" := .images (by decide)
  have hsame : SameBut "directories" "images" numberForImages [] := by
    refine ⟨fun n => ?_, fun n key hne => ?_⟩
    · by_cases hn : n = "directories"
      · simp [numberForImages, hn, isTable, asTable]
      · simp [numberForImages, List.lookup_cons, beq_false_of_ne hn]
    · by_cases hn : n = "directories"
      · have hkey : key ≠ "images" := fun hkey => hne (by rw [hn, hkey])
        simp [numberForImages, entry, List.lookup_cons, hn, beq_false_of_ne hkey]
      · simp [numberForImages, entry, List.lookup_cons, beq_false_of_ne hn]
  obtain ⟨-, -, -, -, hignored⟩ := decodes_right_documents namingHost dataStorage numberForImages
  obtain ⟨-, -, hfirst, hnames, -⟩ :=
    decodes_right_documents namingHost dataStorage [("image", .integer 1)]
  have hexpands : Expands namingHost dataStorage [("image", .integer 1)] :=
    ⟨Path.ofString "/gallery", rfl⟩
  have hrefused := (hfirst (.notTable "image")).mpr rfl
  obtain ⟨item, hitem, hwithin⟩ := hnames hexpands _ hrefused
  obtain rfl := Option.some.inj hitem
  exact ⟨hdecided, hsame, hignored _ _ _ hdecided hsame, hexpands, hrefused, hwithin⟩

end Variable

end Settings

end GalleryCatalog
