import GalleryCatalog.Metadata.Mapping

/-!
# The rule that decides

Of the alias rules that match an item the last one alone decides what becomes of it. Rules before
it make no difference, nor do later ones that do not match, and an item that no rule matches stays
as it is. The rule that decides may leave a part of the item alone, and then no earlier rule
changes this part in its place.
-/

set_option autoImplicit false

namespace GalleryCatalog

/-! ## When a rule matches -/

/-- Two texts are the same, or are the same once both are folded. -/
def SameText (ignoreCase : Bool) (a b : String) : Prop :=
  if ignoreCase then Text.foldCase a = Text.foldCase b else a = b

/-- A text stands within another one, or does once both are folded. -/
def WithinText (ignoreCase : Bool) (a b : String) : Prop :=
  if ignoreCase then (Text.foldCase a).toList <:+: (Text.foldCase b).toList
  else a.toList <:+: b.toList

/-- A source with a name is matched by this name, and any other one by what its URL contains. -/
inductive SourceRule.Matches (r : SourceRule) (s : Source) : Prop
  | byName {name : String} (given : s.name = some name) (named : name ≠ "")
      (same : SameText r.ignoreCase r.pattern name)
  | byUrl {url : String} (nameless : s.name = none ∨ s.name = some "") (given : s.url = some url)
      (located : url ≠ "") (within : WithinText r.ignoreCase r.pattern url)

/-- A tag is matched by its name, and by its name space where the rule asks for one. Case always
makes a difference to a name space. -/
structure TagRule.Matches (r : TagRule) (t : Tag) : Prop where
  space : r.onlySpace = none ∨ r.onlySpace = some "" ∨ r.onlySpace = some t.space
  name : ∃ name ∈ r.names, SameText r.ignoreCase name t.name

theorem comparable_eq_iff {ignoreCase : Bool} {a b : String} :
    comparable ignoreCase a = comparable ignoreCase b ↔ SameText ignoreCase a b := by
  cases ignoreCase <;> exact Iff.rfl

theorem occursIn_comparable {ignoreCase : Bool} {a b : String} :
    Text.occursIn (comparable ignoreCase a).toList (comparable ignoreCase b).toList = true ↔
      WithinText ignoreCase a b := by
  rw [Text.occursIn_iff]
  cases ignoreCase <;> exact Iff.rfl

theorem filter_ne_empty_eq_some {o : Option String} {text : String} :
    o.filter (· ≠ "") = some text ↔ o = some text ∧ text ≠ "" := by
  simp [Option.filter_eq_some_iff]

theorem filter_ne_empty_eq_none {o : Option String} :
    o.filter (· ≠ "") = none ↔ o = none ∨ o = some "" := by
  cases o <;> simp [Option.filter]

theorem SourceRule.applies_iff {r : SourceRule} {s : Source} :
    r.applies s = true ↔ r.Matches s := by
  unfold applies Source.givenName
  cases hname : s.name.filter (· ≠ "") with
  | some name =>
    obtain ⟨hgiven, hne⟩ := filter_ne_empty_eq_some.mp hname
    rw [beq_iff_eq, eq_comm, comparable_eq_iff]
    constructor
    · exact .byName hgiven hne
    · rintro (⟨hgiven', -, hsame⟩ | ⟨hnameless, -, -, -⟩)
      · obtain rfl := Option.some.inj (hgiven.symm.trans hgiven')
        exact hsame
      · rw [filter_ne_empty_eq_none.mpr hnameless] at hname
        contradiction
  | none =>
    have hnameless := filter_ne_empty_eq_none.mp hname
    have hnot : ¬ ∃ name, s.name = some name ∧ name ≠ "" := by
      rintro ⟨name, hgiven⟩
      rw [filter_ne_empty_eq_some.mpr hgiven] at hname
      contradiction
    cases hurl : s.url.filter (· ≠ "") with
    | some url =>
      obtain ⟨hgiven, hne⟩ := filter_ne_empty_eq_some.mp hurl
      rw [occursIn_comparable]
      constructor
      · exact .byUrl hnameless hgiven hne
      · rintro (⟨hname', hne', -⟩ | ⟨-, hgiven', -, hwithin⟩)
        · exact absurd ⟨_, hname', hne'⟩ hnot
        · obtain rfl := Option.some.inj (hgiven.symm.trans hgiven')
          exact hwithin
    | none =>
      refine iff_of_false Bool.false_ne_true ?_
      rintro (⟨hname', hne', -⟩ | ⟨-, hgiven', hne', -⟩)
      · exact hnot ⟨_, hname', hne'⟩
      · rw [filter_ne_empty_eq_some.mpr ⟨hgiven', hne'⟩] at hurl
        contradiction

theorem TagRule.applies_iff {r : TagRule} {t : Tag} : r.applies t = true ↔ r.Matches t := by
  have hname : (r.names.map (comparable r.ignoreCase)).contains (comparable r.ignoreCase t.name) =
      true ↔ ∃ name ∈ r.names, SameText r.ignoreCase name t.name := by
    simp [comparable_eq_iff]
  rw [applies, Bool.and_eq_true, hname]
  cases hspace : r.onlySpace.filter (· ≠ "") with
  | some space =>
    obtain ⟨hgiven, hne⟩ := filter_ne_empty_eq_some.mp hspace
    have hsame : (space == t.space) = true ↔
        r.onlySpace = none ∨ r.onlySpace = some "" ∨ r.onlySpace = some t.space := by
      simp [hgiven, hne]
    exact ⟨fun ⟨hspace, hname⟩ => ⟨hsame.mp hspace, hname⟩,
      fun h => ⟨hsame.mpr h.space, h.name⟩⟩
  | none =>
    have hany := filter_ne_empty_eq_none.mp hspace
    exact ⟨fun ⟨_, hname⟩ => ⟨hany.imp_right .inl, hname⟩, fun h => ⟨rfl, h.name⟩⟩

/-! ## What the rule that decides does -/

/-- A rule gives a source the name that it defines, be it empty, and never another URL. -/
structure SourceRule.Renames (r : SourceRule) (s s' : Source) : Prop where
  named : ∀ name, r.name = some name → s'.name = some name
  kept : r.name = none → s'.name = s.name
  located : s'.url = s.url

/-- A rule gives a tag the name that it defines, be it empty, and the name space that it defines
unless this is empty. -/
structure TagRule.Rewrites (r : TagRule) (t t' : Tag) : Prop where
  spaced : ∀ space, r.space = some space → space ≠ "" → t'.space = space
  keptSpace : r.space = none ∨ r.space = some "" → t'.space = t.space
  named : ∀ name, r.name = some name → t'.name = name
  keptName : r.name = none → t'.name = t.name

/-- The last of some values of which something is so. -/
def LastOf {α : Type} (xs : List α) (p : α → Prop) (x : α) : Prop :=
  ∃ before after, xs = before ++ x :: after ∧ p x ∧ ∀ y ∈ after, ¬ p y

section Decides

variable {ρ α : Type} {Matches : ρ → α → Prop} {Rewrites : ρ → α → α → Prop}
  {mapped : List ρ → α → α}

/-- Of the rules of a list that match an item the last one decides alone. -/
structure LastDecides (Matches : ρ → α → Prop) (Rewrites : ρ → α → α → Prop)
    (mapped : List ρ → α → α) : Prop where
  /-- The rule that decides does what it would do on its own. -/
  decided : ∀ rules x r, LastOf rules (Matches · x) r →
    Rewrites r x (mapped rules x) ∧ mapped rules x = mapped [r] x
  /-- What stands before the rule that decides, and what stands after it without a match, may be
  anything. -/
  others : ∀ before before' r after after' x, Matches r x →
    (∀ q ∈ after, ¬ Matches q x) → (∀ q ∈ after', ¬ Matches q x) →
    mapped (before ++ r :: after) x = mapped (before' ++ r :: after') x
  unmatched : ∀ rules x, (∀ r ∈ rules, ¬ Matches r x) → mapped rules x = x

theorem lastThat_of_lastOf {p : ρ → Bool} {rules : List ρ} {r : ρ}
    (h : LastOf rules (p · = true) r) : lastThat p rules = some r := by
  obtain ⟨before, after, rfl, hr, hafter⟩ := h
  have hnone : lastThat p after = none :=
    (lastThat_eq_none_iff p after).mpr fun q hq => Bool.eq_false_iff.mpr (hafter q hq)
  have hone : lastThat p [r] = some r := by simp [lastThat, hr]
  rw [← List.singleton_append, lastThat_append, lastThat_append, hnone, hone, Option.none_or,
    Option.some_or]

/-- A mapping by the last rule that applies is decided by it alone. -/
theorem LastDecides.of_lastThat {applies : ρ → α → Bool} (rewrite : ρ → α → α)
    (happlies : ∀ {r x}, applies r x = true ↔ Matches r x)
    (hrewrite : ∀ r x, Rewrites r x (rewrite r x))
    (hmapped : ∀ rules x, mapped rules x = (lastThat (applies · x) rules).elim x (rewrite · x)) :
    LastDecides Matches Rewrites mapped := by
  have hdecided : ∀ {rules x r}, LastOf rules (Matches · x) r → mapped rules x = rewrite r x := by
    intro rules x r hlast
    have hlast' : LastOf rules (applies · x = true) r := by simpa only [happlies] using hlast
    rw [hmapped, lastThat_of_lastOf hlast', Option.elim_some]
  refine ⟨fun rules x r hlast => ?_, fun before before' r after after' x hr hafter hafter' => ?_,
    fun rules x hnone => ?_⟩
  · have halone : mapped [r] x = rewrite r x := by
      obtain ⟨-, -, -, hr, -⟩ := hlast
      exact hdecided ⟨[], [], rfl, hr, by simp⟩
    rw [hdecided hlast, halone]
    exact ⟨hrewrite r x, rfl⟩
  · rw [hdecided ⟨before, after, rfl, hr, hafter⟩, hdecided ⟨before', after', rfl, hr, hafter'⟩]
  · have hnone' : lastThat (applies · x) rules = none :=
      (lastThat_eq_none_iff _ _).mpr fun r hr =>
        Bool.eq_false_iff.mpr (mt happlies.mp (hnone r hr))
    rw [hmapped, hnone', Option.elim_none]

end Decides

theorem Source.lastDecides :
    LastDecides SourceRule.Matches SourceRule.Renames Source.mapped := by
  refine .of_lastThat (fun r s => { s with name := r.name.or s.name }) SourceRule.applies_iff
    (fun r s => ⟨?_, ?_, rfl⟩) fun rules s => ?_
  · rintro name hname
    simp only [hname, Option.some_or]
  · intro hname
    simp only [hname, Option.none_or]
  · unfold Source.mapped
    cases lastThat (·.applies s) rules <;> rfl

theorem Tag.lastDecides : LastDecides TagRule.Matches TagRule.Rewrites Tag.mapped := by
  refine .of_lastThat
    (fun r t => ⟨(r.space.filter (· ≠ "")).getD t.space, r.name.getD t.name⟩)
    TagRule.applies_iff (fun r t => ⟨?_, ?_, ?_, ?_⟩) fun rules t => ?_
  · intro space hspace hne
    simp only [filter_ne_empty_eq_some.mpr ⟨hspace, hne⟩, Option.getD_some]
  · intro hspace
    simp only [filter_ne_empty_eq_none.mpr hspace, Option.getD_none]
  · intro name hname
    simp only [hname, Option.getD_some]
  · intro hname
    simp only [hname, Option.getD_none]
  · unfold Tag.mapped
    cases lastThat (·.applies t) rules <;> rfl

/-- A rule matches what it is said to match, and the last one that does decides alone. -/
theorem last_matching_rule_decides :
    (∀ (r : SourceRule) (s : Source), r.applies s = true ↔ r.Matches s) ∧
      (∀ (r : TagRule) (t : Tag), r.applies t = true ↔ r.Matches t) ∧
      LastDecides SourceRule.Matches SourceRule.Renames Source.mapped ∧
      LastDecides TagRule.Matches TagRule.Rewrites Tag.mapped :=
  ⟨fun _ _ => SourceRule.applies_iff, fun _ _ => TagRule.applies_iff, Source.lastDecides,
    Tag.lastDecides⟩

/-- The last rule has no name to give, and the one before it does not come to give its own. -/
example : Source.mapped [⟨"a", false, some "b"⟩, ⟨"A", true, none⟩] ⟨some "a", none⟩ =
    ⟨some "a", none⟩ := by
  decide +kernel

end GalleryCatalog
