import GalleryCatalog.Proofs.Convergence
import GalleryCatalog.Proofs.FirstOccurrences

/-!
# Sources without a name

A source that has no name after renaming is never stored, so it is new whenever it comes and is
skipped each time. Only a verbose pass tells of it. This is all that makes a verbose pass another
one: the rows and the counts are the same.
-/

set_option autoImplicit false

namespace GalleryCatalog

/-- The name of a source is absent or empty. -/
def Source.Nameless (x : Source) : Prop :=
  x.name = none ∨ x.name = some ""

instance (x : Source) : Decidable x.Nameless :=
  inferInstanceAs (Decidable (_ ∨ _))

/-- A notice warns of a source of an archive that has no name. -/
structure Notice.WarnsOf (n : Notice) (archive : Int) (x : Source) : Prop where
  severity : n.severity = .warning
  message : n.message = "[ID: " ++ toString archive ++
    "] Couldn't get a name for the source with URL " ++ x.url.getD "None"

namespace Reconcile

theorem nameless_iff {x : Source} : x.Nameless ↔ isNamed x = false := by
  rcases x with ⟨_ | name, url⟩
  · simp [Source.Nameless, isNamed, Source.givenName]
  · by_cases hname : name = "" <;>
      simp [Source.Nameless, isNamed, Source.givenName, Option.filter, hname]

/-- The sources without a name among the renamed ones, each of them once. -/
def namelessSources (rules : List SourceRule) (incoming : List Source) : List Source :=
  (normalizeSources rules incoming).filter fun x => !isNamed x

theorem namelessSources_first (rules : List SourceRule) (incoming : List Source) :
    FirstOccurrences ((incoming.map (Source.mapped rules)).filter (·.Nameless))
      (namelessSources rules incoming) := by
  have hsame : (fun x : Source => !isNamed x) = fun x => decide x.Nameless := by
    funext x
    simp only [nameless_iff, Bool.decide_eq_false]
  rw [namelessSources, hsame, normalizeSources, ← eraseDups_filter]
  exact eraseDups_firstOccurrences _

/-! ## What is told -/

theorem afterSources_quiet (archive : Int) (xs : List Source) (w : Workspace) :
    xs.foldl (afterSource archive false) w = w := by
  induction xs generalizing w with
  | nil => rfl
  | cons x xs ih =>
    have hstep : afterSource archive false w x = w := by simp [afterSource]
    rw [List.foldl_cons, hstep, ih]

/-- A verbose pass gives a notice for every source that it does not store. -/
theorem afterSources_verbose (archive : Int) (xs : List Source) (w : Workspace) :
    xs.foldl (afterSource archive true) w =
      { w with
        notices := w.notices ++
          (xs.filter fun x => !isNamed x).map fun x => .namelessSource archive x.url } := by
  induction xs generalizing w with
  | nil => simp
  | cons x xs ih =>
    rw [List.foldl_cons, ih]
    by_cases hx : isNamed x = true <;> simp [afterSource, hx, Workspace.told]

theorem warnings_warn (archive : Int) (xs : List Source) :
    List.Forall₂ (fun x n => Notice.WarnsOf n archive x) xs
      (xs.map fun x => .namelessSource archive x.url) := by
  rw [List.forall₂_map_right_iff, List.forall₂_same]
  exact fun _ _ => ⟨rfl, rfl⟩

/-- Let two passes over the sources of an archive differ in that one of them is verbose. Both leave
the same rows and count the same, and what they skip are the renamed sources without a name, each
counted once. The verbose pass warns of each of these once, in the order in which they first come,
and the other one tells nothing. For a number that no column holds both fail alike. -/
theorem verbose_only_warns {s : Store} (hs : s.Reachable) (archive : Int)
    (rules : List SourceRule) (merge : Bool) (incoming : List Source) (w : Workspace) :
    (fits archive = false ∧ ∀ verbose,
      sources archive rules merge verbose incoming (w.on s) = .error outOfRange (w.on s)) ∨
    fits archive = true ∧ ∃ o s' nameless warnings,
      sources archive rules merge false incoming (w.on s) = .ok o (w.on s') ∧
      sources archive rules merge true incoming (w.on s) =
        .ok o (({ w with notices := w.notices ++ warnings } : Workspace).on s') ∧
      FirstOccurrences ((incoming.map (Source.mapped rules)).filter (·.Nameless)) nameless ∧
      o.skipped = nameless.length ∧
      List.Forall₂ (fun x n => Notice.WarnsOf n archive x) nameless warnings := by
  cases hfits : fits archive with
  | false =>
    exact .inl ⟨rfl, fun verbose => sources_unfit hfits rules merge verbose incoming w s⟩
  | true =>
    have hskipped : (freshSources (normalizeSources rules incoming) (s.sourcesOf archive)).filter
        (fun x => !isNamed x) = namelessSources rules incoming :=
      freshSources_nameless (hs.sound.named archive)
    have hquiet := sources_on hfits rules merge false incoming w s
    have hverbose := sources_on hfits rules merge true incoming w s
    rw [afterSources_quiet] at hquiet
    rw [afterSources_verbose, hskipped] at hverbose
    exact .inr ⟨rfl, _, _, _, _, hquiet, hverbose, namelessSources_first rules incoming,
      congrArg List.length hskipped, warnings_warn archive _⟩

/-- A name that is absent is not the same as an empty one, so two sources are skipped for one URL,
and the repetition of the first of them is not. -/
theorem absent_and_empty_name_skipped :
    let incoming : List Source := [⟨none, some "u"⟩, ⟨some "", some "u"⟩, ⟨none, some "u"⟩]
    ∃ o s' nameless warnings,
      sources 1 [] false true incoming (Workspace.on {} .withFirst) =
        .ok o (Workspace.on { notices := warnings } s') ∧
      ⟨none, some "u"⟩ ∈ nameless ∧ ⟨some "", some "u"⟩ ∈ nameless ∧ nameless.Nodup ∧
      o.skipped = nameless.length ∧
      List.Forall₂ (fun x n => Notice.WarnsOf n 1 x) nameless warnings := by
  intro incoming
  rcases verbose_only_warns Store.withFirst_reachable 1 [] false incoming {} with
    ⟨hunfit, -⟩ | ⟨-, o, s', nameless, warnings, -, hverbose, hfirst, hskipped, hwarn⟩
  · exact absurd hunfit (by decide)
  · exact ⟨o, s', nameless, warnings, hverbose, (hfirst.same _).mpr (by decide),
      (hfirst.same _).mpr (by decide), hfirst.once, hskipped, hwarn⟩

end Reconcile

end GalleryCatalog
