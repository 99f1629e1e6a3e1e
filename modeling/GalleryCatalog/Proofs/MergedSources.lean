import GalleryCatalog.Proofs.Convergence
import GalleryCatalog.Proofs.RowChanges

/-!
# Merging sources

A merge adds to the sources of an archive and takes none away. Two merges, one after the other,
come to the same as one merge of both lists: what the first one has added is stored when the
second one looks, and stands earlier in the list when both are merged at once.
-/

set_option autoImplicit false

namespace GalleryCatalog

namespace Reconcile

/-- The sources that a merge adds to those of an archive. -/
def addedSources (rules : List SourceRule) (incoming current : List Source) : List Source :=
  (freshSources (normalizeSources rules incoming) current).filter isNamed

theorem mem_addedSources {rules : List SourceRule} {incoming current : List Source} {x : Source} :
    x ∈ addedSources rules incoming current ↔
      x ∈ normalizeSources rules incoming ∧ x ∉ current ∧ isNamed x = true := by
  simp [addedSources, freshSources, and_comm]

/-- What the later list adds is what it would add to the sources that the earlier one leaves. -/
theorem addedSources_append (rules : List SourceRule) (xs ys current : List Source) :
    addedSources rules (xs ++ ys) current =
      addedSources rules xs current ++
        addedSources rules ys (current ++ addedSources rules xs current) := by
  simp only [addedSources, freshSources, normalizeSources_append, List.filter_append,
    List.filter_filter]
  congr 1
  apply List.filter_congr
  intro y _
  by_cases hnamed : isNamed y = true <;> by_cases hstored : y ∈ current <;> simp [hnamed, hstored]

end Reconcile

open Reconcile

namespace Store

variable {archive : Int} {rules : List SourceRule}

theorem afterMerge_eq (archive : Int) (rules : List SourceRule) (incoming : List Source)
    (s : Store) :
    s.afterSources archive rules true incoming =
      (addedSources rules incoming (s.sourcesOf archive)).foldl (withSource archive) s :=
  rfl

theorem afterMerge_sourcesOf (archive : Int) (rules : List SourceRule) (incoming : List Source)
    (s : Store) :
    (s.afterSources archive rules true incoming).sourcesOf archive =
      s.sourcesOf archive ++ addedSources rules incoming (s.sourcesOf archive) :=
  withSources_sourcesOf archive _ s fun _ hx => (mem_addedSources.mp hx).2.2

theorem afterMerge_append (archive : Int) (rules : List SourceRule) (xs ys : List Source)
    (s : Store) :
    s.afterSources archive rules true (xs ++ ys) =
      (s.afterSources archive rules true xs).afterSources archive rules true ys := by
  rw [afterMerge_eq, addedSources_append, List.foldl_append, ← afterMerge_eq,
    ← afterMerge_sourcesOf, ← afterMerge_eq]

/-- Every row stays, whichever archive it is of. -/
theorem afterMerge_rows (archive : Int) (rules : List SourceRule) (incoming : List Source)
    (s : Store) : s.sources <+: (s.afterSources archive rules true incoming).sources := by
  obtain ⟨added, hrows, -⟩ := withSources_rows archive
    (addedSources rules incoming (s.sourcesOf archive)) s fun _ hx => (mem_addedSources.mp hx).2.2
  exact ⟨added, hrows.symm⟩

theorem afterMerge_holds {incoming : List Source} {s : Store} {x : Source} :
    (s.afterSources archive rules true incoming).HoldsSource archive x ↔
      s.HoldsSource archive x ∨ x ∈ normalizeSources rules incoming ∧ isNamed x = true := by
  rw [holdsSource_iff, holdsSource_iff, afterMerge_sourcesOf, List.mem_append, mem_addedSources]
  by_cases hx : x ∈ s.sourcesOf archive <;> simp [hx]

end Store

namespace Reconcile

/-- A merge into the sources of an archive returns, whatever else there is to work on. -/
def Merges (archive : Int) (rules : List SourceRule) (incoming : List Source) (s : Store)
    (o : SourceOutcome) (s' : Store) : Prop :=
  ∀ (verbose : Bool) (w : Workspace), ∃ w' : Workspace,
    sources archive rules true verbose incoming (w.on s) = .ok o (w'.on s')

theorem merges {archive : Int} (h : fits archive = true) (rules : List SourceRule)
    (incoming : List Source) (s : Store) :
    Merges archive rules incoming s (sourceOutcome rules true incoming (s.sourcesOf archive))
      (s.afterSources archive rules true incoming) :=
  fun verbose w => ⟨_, sources_on h rules true verbose incoming w s⟩

theorem Merges.store_eq {archive : Int} (h : fits archive = true) {rules : List SourceRule}
    {incoming : List Source} {s s' : Store} {o : SourceOutcome}
    (hmerges : Merges archive rules incoming s o s') :
    s' = s.afterSources archive rules true incoming := by
  obtain ⟨w, hrun⟩ := hmerges false {}
  rw [sources_on h] at hrun
  exact (Workspace.on_store (EStateM.Result.ok.inj hrun).2).symm

/-- Two merges leave the rows that one merge of both lists leaves, and add as many of them. No
merge takes a row out, and what an archive holds afterwards grows with what it has held. -/
theorem merge_in_parts (archive : Int) (rules : List SourceRule) (xs ys : List Source)
    (s : Store) :
    (fits archive = false ∧ ∀ (incoming : List Source) (verbose : Bool) (w : Workspace),
      sources archive rules true verbose incoming (w.on s) = .error outOfRange (w.on s)) ∨
    fits archive = true ∧ ∃ o₁ o₂ o s₁ s₂,
      Merges archive rules xs s o₁ s₁ ∧ Merges archive rules ys s₁ o₂ s₂ ∧
      Merges archive rules (xs ++ ys) s o s₂ ∧
      o.inserted = o₁.inserted + o₂.inserted ∧
      o₁.deleted = 0 ∧ s.sources <+: s₁.sources ∧
      (∀ a x, s.HoldsSource a x → s₁.HoldsSource a x) ∧
      ∀ o' t t', Merges archive rules xs t o' t' →
        (∀ x, s.HoldsSource archive x → t.HoldsSource archive x) →
        ∀ x, s₁.HoldsSource archive x → t'.HoldsSource archive x := by
  cases hfits : fits archive with
  | false =>
    exact .inl ⟨rfl, fun incoming verbose w => sources_unfit hfits rules true verbose incoming w s⟩
  | true =>
    have hboth := merges hfits rules (xs ++ ys) s
    rw [Store.afterMerge_append] at hboth
    have hrows := s.afterMerge_rows archive rules xs
    refine .inr ⟨rfl, _, _, _, _, _, merges hfits rules xs s, merges hfits rules ys _, hboth, ?_,
      rfl, hrows, ?_, ?_⟩
    · have hadded := congrArg List.length (addedSources_append rules xs ys (s.sourcesOf archive))
      rwa [List.length_append, ← Store.afterMerge_sourcesOf] at hadded
    · rintro a x ⟨r, hr, hrow⟩
      exact ⟨r, hrows.subset hr, hrow⟩
    · intro o' t t' hmerges hgrows x hx
      rw [hmerges.store_eq hfits, Store.afterMerge_holds]
      exact (Store.afterMerge_holds.mp hx).imp_left (hgrows x)

end Reconcile

end GalleryCatalog
