import Mathlib.Tactic.SplitIfs
import GalleryCatalog.Migration.Options

/-!
# Options that stand for themselves

A text with every percent sign written twice has no reference in it and no percent sign that
stands alone, so it can be set as an option and is read back as it was, whatever other options
there are. The URI of a database takes that way. A migration fails to be configured on account of
the project alone, and never on account of the URI.
-/

set_option autoImplicit false

namespace GalleryCatalog

namespace Text

/-! ## Escaped text -/

variable (option : String → Option (List Char))

theorem interpolate_pair (rest : List Char) :
    interpolate option ('%' :: '%' :: rest) = (interpolate option rest).map ('%' :: ·) := by
  rw [interpolate]

theorem interpolate_plain {c : Char} (h : c ≠ '%') (rest : List Char) :
    interpolate option (c :: rest) = (interpolate option rest).map (c :: ·) := by
  rw [interpolate]
  · rw [if_neg h]
  all_goals simp [h]

/-- The reader takes percent signs in pairs, so that none is left over for a reference. -/
theorem interpolate_escapePercent (cs : List Char) :
    interpolate option (escapePercent cs) = some cs := by
  induction cs with
  | nil => rw [escapePercent, interpolate]
  | cons c cs ih =>
    by_cases hc : c = '%'
    · rw [escapePercent, if_pos hc, interpolate_pair, ih, hc]
      rfl
    · rw [escapePercent, if_neg hc, interpolate_plain option hc, ih]
      rfl

theorem dropEscaped_plain {c : Char} (h : c ≠ '%') (rest : List Char) :
    dropEscaped (c :: rest) = c :: dropEscaped rest := by
  rw [dropEscaped]
  simp [h]

/-- Once pairs are left out of escaped text, no percent sign remains. -/
theorem dropEscaped_escapePercent (cs : List Char) :
    dropEscaped (escapePercent cs) = cs.filter (· ≠ '%') := by
  induction cs with
  | nil => rfl
  | cons c cs ih =>
    by_cases hc : c = '%'
    · simp [escapePercent, hc, dropEscaped, ih]
    · simp [escapePercent, hc, dropEscaped_plain hc, ih]

theorem dropReferences_of_not_mem {cs : List Char} (h : '%' ∉ cs) : dropReferences cs = cs := by
  induction cs with
  | nil => rw [dropReferences]
  | cons c cs ih =>
    obtain ⟨hc, hcs⟩ := not_or.mp (mt List.mem_cons.mpr h)
    rw [dropReferences, ih hcs]
    rintro rest hsame -
    exact hc hsame.symm

theorem lonePercent?_escapePercent (cs : List Char) : lonePercent? (escapePercent cs) = none := by
  have hnone : '%' ∉ cs.filter (· ≠ '%') := by simp
  rw [lonePercent?, dropEscaped_escapePercent, dropReferences_of_not_mem hnone]
  simp

end Text

namespace Migration

open Text (lowerCase escapePercent)

/-! ## One option -/

namespace Options

/-- Every text can be set. -/
theorem setText_eq (options : Options) (name text : String) :
    options.setText name text = .ok ((lowerCase name, escapePercent text.toList) :: options) := by
  rw [setText, Options.set, Text.lonePercent?_escapePercent]

/-- What was set last is read back as it was, without a look at other options. -/
theorem get?_setText {options options' : Options} {name text : String}
    (h : options.setText name text = .ok options') : options'.get? name = some text := by
  obtain rfl := Except.ok.inj ((setText_eq options name text).symm.trans h)
  rw [get?, List.lookup_cons_self]
  simp only [referenceDepth, resolve, Option.bind_eq_bind, Option.bind_some,
    Text.interpolate_escapePercent]
  simp

theorem setEach_ok (entries : List (String × String)) (options : Options) :
    ∃ options', entries.foldlM (fun options e => setText options e.1 e.2) options =
      .ok options' := by
  induction entries generalizing options with
  | nil => exact ⟨options, rfl⟩
  | cons e entries ih =>
    obtain ⟨options', hrest⟩ := ih ((lowerCase e.1, escapePercent e.2.toList) :: options)
    refine ⟨options', ?_⟩
    rw [List.foldlM_cons, setText_eq]
    exact hrest

end Options

/-! ## The options of a migration -/

namespace Project

variable {p : Project} {e : OptionsError}

/-- What a project cannot be configured for: its file, or a path in it. -/
inductive Fails (p : Project) (e : OptionsError) : Prop
  | unread (h : p.options = .error e)
  | scripts {own : List (String × String)} (hown : p.options = .ok own)
      (h : p.scripts (own.lookup scriptsOption) = .error e)
  | search {own : List (String × String)} {path : Path} (hown : p.options = .ok own)
      (hscripts : p.scripts (own.lookup scriptsOption) = .ok path)
      (h : p.pathOr (Path.ofLocation p.root) (own.lookup searchOption) = .error e)

theorem Fails.configure (h : p.Fails e) (start : Options) : p.configure start = .error e := by
  unfold Project.configure
  cases h with
  | unread h => simp [bind, Except.bind, h]
  | scripts hown h => simp [bind, Except.bind, hown, h]
  | search hown hscripts h =>
    simp [bind, Except.bind, hown, hscripts, Options.setText_eq, h]

theorem configure_ok (h : ∀ e, ¬ p.Fails e) (start : Options) :
    ∃ options, p.configure start = .ok options := by
  cases hown : p.options with
  | error e => exact absurd (.unread hown) (h e)
  | ok own =>
    cases hscripts : p.scripts (own.lookup scriptsOption) with
    | error e => exact absurd (.scripts hown hscripts) (h e)
    | ok scripts =>
      cases hsearch : p.pathOr (Path.ofLocation p.root) (own.lookup searchOption) with
      | error e => exact absurd (.search hown hscripts hsearch) (h e)
      | ok search =>
        obtain ⟨options, hrest⟩ := Options.setEach_ok
          (own.filter fun e => e.1 ≠ scriptsOption ∧ e.1 ≠ searchOption)
          ((lowerCase searchOption, escapePercent search.text.toList) ::
            (lowerCase scriptsOption, escapePercent scripts.text.toList) :: start)
        refine ⟨options, ?_⟩
        unfold Project.configure
        simpa [bind, Except.bind, hown, hscripts, hsearch, Options.setText_eq] using hrest

/-- Whatever the URI is, with any percent signs and with text that looks like a reference, it can be
set and is read back as it was. What a migration cannot be configured for lies in the project, and
is the same for all URIs and without one. -/
theorem uri_reads_back (p : Project) (start : Options) (uri : String) :
    ((∀ e, ¬ p.Fails e) → ∃ options, p.migration start (some uri) = .ok options ∧
        options.get? urlOption = some uri) ∧
      ∀ e, p.Fails e → p.migration start (some uri) = .error e ∧
        p.migration start none = .error e := by
  constructor
  · intro hsound
    obtain ⟨options, hconfigure⟩ := configure_ok hsound start
    have hset := options.setText_eq urlOption uri
    refine ⟨_, ?_, Options.get?_setText hset⟩
    simpa [migration, bind, Except.bind, hconfigure] using hset
  · intro e hfails
    simp [migration, bind, Except.bind, hfails.configure start]

/-- A program with its migrations in a directory of their own, and no project file. -/
def shipped : Project where
  tree := { folders := [["app"], ["app", "migrations"]] }
  root := ["app"]
  migrations := ["app", "migrations"]

theorem shipped_sound (e : OptionsError) : ¬ shipped.Fails e := by
  have hnone : shipped.options = .ok [] := rfl
  have hfound : shipped.scripts none = .ok (Path.ofLocation shipped.migrations) := rfl
  intro h
  cases h with
  | unread h => simp [hnone] at h
  | scripts hown h =>
    obtain rfl := Except.ok.inj (hnone.symm.trans hown)
    simp [hfound] at h
  | search hown _ h =>
    obtain rfl := Except.ok.inj (hnone.symm.trans hown)
    simp [pathOr] at h

/-- A URI with an option in it, and with runs of percent signs of either kind. -/
theorem odd_uri_reads_back :
    ∃ options, shipped.migration [("here", [])] (some "sqlite:///%(here)s/50%off%%%") =
        .ok options ∧
      options.get? urlOption = some "sqlite:///%(here)s/50%off%%%" :=
  (uri_reads_back shipped [("here", [])] _).1 shipped_sound

end Project

end Migration

end GalleryCatalog
