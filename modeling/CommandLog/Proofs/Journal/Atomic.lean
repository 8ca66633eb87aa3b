import CommandLog.Proofs.Disk.Frame
import CommandLog.Proofs.Journal.Replace

/-!
# Replacements at any path

A replacement opens the temporary sibling, writes to it, and renames it. This file says what it has
done when it ends, and when it is stopped on the way, whatever the path leads to and whether or not
the payloads fit.

* `CommandLog.Journal.rewriteSteps` – the steps of a replacement, which
  `CommandLog.Journal.replace_eq_runSteps` says are run;
* `CommandLog.Journal.Drafted` and `CommandLog.Journal.Renamed` – how far a replacement has come,
  with `CommandLog.Journal.cases_of_leaves` for one that is cut short and
  `CommandLog.Journal.cases_of_replace` for one that has ended;
* `CommandLog.Journal.replace_atomic` – **the path leads to what it led to or to the new journal**
  at every moment, and the outcome tells which, unless the journal is its own temporary sibling;
* `CommandLog.Journal.emptied_of_own_sibling` and `CommandLog.Journal.replaced_of_own_sibling` – a
  journal that is its own sibling is emptied first, and may be replaced although the replacement
  fails.

Until it is renamed, the sibling has the new journal and the path has the old one. Both facts hang
on the two being at different places, and this on their names only; and on a sound disk, which is
what the main result is about, two places never have one file.
-/

namespace CommandLog.Journal

open Disk (Desk Item Leads Leaves Opened Step)

variable {d d' : Disk} {path : Path} {above : Place} {name : String} {id : FileId}
  {bytes : Bytes} {ps : List Bytes}

/-! ### The steps -/

/-- **The steps of a replacement.** In front of a payload that does not fit a record it comes to
an end, with the payloads before that one in the temporary sibling. -/
def rewriteSteps (path : Path) (ps : List Bytes) : List Step :=
  if ps.all fits then replaceSteps path ps else draftSteps path (ps.takeWhile fits)

theorem rewriteSteps_of_fits (hfits : ps.all fits = true) :
    rewriteSteps path ps = replaceSteps path ps :=
  if_pos hfits

theorem rewriteSteps_of_not_fits (hfits : ps.all fits = false) :
    rewriteSteps path ps = draftSteps path (ps.takeWhile fits) :=
  if_neg (by simp [hfits])

/-- **A replacement runs its steps**, and one whose payloads do not all fit fails after them. -/
theorem replace_eq_runSteps (path : Path) (ps : List Bytes) (d : Disk) :
    replace path ps d =
      match Disk.runSteps { disk := d, file := none } (rewriteSteps path ps) with
      | (.error f, k) => (.error (.io f), k.disk)
      | (.ok (), k) =>
        (if ps.all fits then .ok () else .error (.io .recordTooLong), k.disk) := by
  rw [replace, List.span_eq_takeWhile_dropWhile]
  cases hfits : ps.all fits with
  | true =>
    have hnone : ps.dropWhile fits = [] := List.dropWhile_eq_nil_iff.mpr (List.all_eq_true.mp hfits)
    rcases hrun : Disk.runSteps { disk := d, file := none } (replaceSteps path ps) with
      ⟨_ | _, k⟩ <;>
    simp only [rewriteSteps_of_fits hfits, hnone, hrun, if_true]
  | false =>
    -- the first payload that does not fit is where the second half begins
    obtain ⟨p, rest, hrest⟩ : ∃ p rest, ps.dropWhile fits = p :: rest := by
      rw [← List.ne_nil_iff_exists_cons]
      intro hnil
      rw [List.all_eq_true.mpr (List.dropWhile_eq_nil_iff.mp hnil)] at hfits
      cases hfits
    rcases hrun : Disk.runSteps { disk := d, file := none }
      (draftSteps path (ps.takeWhile fits)) with ⟨_ | _, k⟩ <;>
    simp only [rewriteSteps_of_not_fits hfits, hrest, hrun, Bool.false_eq_true, if_false]

/-! ### How far a replacement has come -/

/-- **The temporary sibling has been opened**, and maybe written to. -/
def Drafted (d : Disk) (path : Path) (d' : Disk) : Prop :=
  ∃ above name id, d.reach true path.temporary = .ok (.entry above name false) ∧
    Opened d (above ++ [name]) id d'

/-- **The temporary sibling has been renamed**, with the whole new journal in it. -/
def Renamed (d : Disk) (path : Path) (ps : List Bytes) (d' : Disk) : Prop :=
  ∃ id d₁, d.create path.temporary = .ok (id, d₁) ∧
    (d₁.write id (encode ps)).rename path.temporary path = .ok d'

/-- The sibling, with some bytes in it. -/
theorem drafted_of_create {d₁ : Disk} (hcreate : d.create path.temporary = .ok (id, d₁))
    (data : Bytes) : Drafted d path (d₁.write id data) := by
  obtain ⟨above, name, hreach, hopened⟩ := Disk.opened_of_create hcreate
  exact ⟨above, name, id, hreach, hopened.write data⟩

/-- What is left of the steps that write the sibling, and of others behind them. -/
theorem cases_of_leaves_draft {k : Desk} {later : List Step}
    (hleaves : Leaves { disk := d, file := none } (draftSteps path ps ++ later) k) :
    k.disk = d ∨ Drafted d path k.disk ∨
      ∃ id d₁, d.create path.temporary = .ok (id, d₁) ∧
        Leaves { disk := d₁.write id (encode ps), file := some id } later k := by
  rcases hleaves.cases_of_ne_write (by simp) with rfl | ⟨k₁, hrun, hleaves⟩
  · exact .inl rfl
  simp only [Step.run] at hrun
  rcases hcreate : d.create path.temporary with f | ⟨id, d₁⟩
  · rw [hcreate] at hrun
    cases hrun
  rw [hcreate] at hrun
  cases hrun
  rcases hleaves.cases_write with hk | ⟨front, rest, -, hk⟩ | hleaves
  · obtain ⟨above, name, hreach, hopened⟩ := Disk.opened_of_create hcreate
    exact .inr (.inl ⟨above, name, id, hreach, hk ▸ hopened⟩)
  · exact .inr (.inl (hk ▸ drafted_of_create hcreate front))
  · exact .inr (.inr ⟨id, d₁, rfl, hleaves⟩)

/-- **What is left of a replacement that is cut short.** -/
theorem cases_of_leaves {k : Desk}
    (hleaves : Leaves { disk := d, file := none } (rewriteSteps path ps) k) :
    k.disk = d ∨ Drafted d path k.disk ∨ Renamed d path ps k.disk := by
  cases hfits : ps.all fits with
  | false =>
    rw [rewriteSteps_of_not_fits hfits, ← List.append_nil (draftSteps _ _)] at hleaves
    rcases cases_of_leaves_draft hleaves with hnone | hdrafted | ⟨id, d₁, hcreate, hlater⟩
    · exact .inl hnone
    · exact .inr (.inl hdrafted)
    · rw [hlater.eq_of_nil]
      exact .inr (.inl (drafted_of_create hcreate _))
  | true =>
    rw [rewriteSteps_of_fits hfits] at hleaves
    rcases cases_of_leaves_draft hleaves with hnone | hdrafted | ⟨id, d₁, hcreate, hlater⟩
    · exact .inl hnone
    · exact .inr (.inl hdrafted)
    · rcases hlater.of_sync.cases_of_ne_write (by simp) with rfl | ⟨k₁, hrun, hlater⟩
      · exact .inr (.inl (drafted_of_create hcreate _))
      · rw [hlater.eq_of_nil]
        simp only [Step.run] at hrun
        cases hrename : (d₁.write id (encode ps)).rename path.temporary path with
        | error f =>
          rw [hrename] at hrun
          cases hrun
        | ok d₂ =>
          rw [hrename] at hrun
          cases hrun
          exact .inr (.inr ⟨id, d₁, hcreate, hrename⟩)

/-- **What a replacement has done when it ends.** -/
theorem cases_of_replace (path : Path) (ps : List Bytes) (d : Disk) :
    match replace path ps d with
    | (.ok (), d') => Renamed d path ps d'
    | (.error _, d') => d' = d ∨ Drafted d path d' := by
  cases hfits : ps.all fits with
  | true =>
    rw [replace_eq (List.all_eq_true.mp hfits)]
    rcases hcreate : d.create path.temporary with f | ⟨id, d₁⟩
    · exact .inl rfl
    · cases hrename : (d₁.write id (encode ps)).rename path.temporary path with
      | error f =>
        simp only [hrename]
        exact .inr (drafted_of_create hcreate _)
      | ok d₂ =>
        simp only [hrename]
        exact ⟨id, d₁, hcreate, hrename⟩
  | false =>
    rw [replace_eq_runSteps, rewriteSteps_of_not_fits hfits, hfits]
    rcases hcreate : d.create path.temporary with f | ⟨id, d₁⟩
    · simp [draftSteps, Disk.runSteps, Step.run, hcreate, Except.map]
    · simp only [draftSteps, Disk.runSteps, Step.run, hcreate, Except.map]
      exact .inr (drafted_of_create hcreate _)

/-! ### What each stage means for the path -/

/-- **A draft does not show at the path**, which does not name the place of its sibling. -/
theorem Drafted.itemAt? (h : Drafted d path d') (hsound : d.Sound)
    (hextension : path.extension? ≠ some "tmp") : d'.itemAt? path = d.itemAt? path := by
  obtain ⟨above, name, id, hreach, hopened⟩ := h
  refine hopened.itemAt? hsound fun hplace => ?_
  obtain ⟨above', name', slash, hgoal, heq⟩ := Disk.exists_goal_of_placeOf? hplace
  exact Disk.temporary_ne hgoal (hsound.reach_eq_ok_iff.mp hreach) hextension heq

theorem Holds.item? (h : Holds d path above name id bytes) :
    d.item? (above ++ [name]) = some (.file bytes) := by
  rw [Disk.item?_of_file h.node, h.content]

/-- **After the rename the path leads to the new journal.** -/
theorem Renamed.itemAt? (h : Renamed d path ps d') (hsound : d.Sound) :
    d'.itemAt? path = some (.file (encode ps)) := by
  obtain ⟨id, d₁, hcreate, hrename⟩ := h
  obtain ⟨above, name, -, -, hholds⟩ := drafted hsound hcreate (encode ps)
  obtain ⟨above', name', -, hholds'⟩ := hholds.renamed hrename
  rw [Disk.itemAt?_of_goal hholds'.leads.goal, hholds'.item?]

/-! ### The replacement as a whole -/

/-- **A replacement happens at once.** Wherever it is stopped, the path leads to what it led to
before or to the whole new journal. It leads to the new one when the replacement succeeds, and to
the old one when it fails, be it because of the disk or because of a payload that fits no record.
The extension of the path must not be that of temporary files, and there must be no links and no
second names of files: by these, too, the sibling and the path could lead to one file. -/
theorem replace_atomic (hsound : d.Sound) (hextension : path.extension? ≠ some "tmp")
    (ps : List Bytes) :
    (∀ k, Leaves { disk := d, file := none } (rewriteSteps path ps) k →
      k.disk.itemAt? path = d.itemAt? path ∨
        k.disk.itemAt? path = some (.file (encode ps))) ∧
    match replace path ps d with
    | (.ok (), d') => d'.itemAt? path = some (.file (encode ps))
    | (.error _, d') => d'.itemAt? path = d.itemAt? path := by
  constructor
  · intro k hleaves
    rcases cases_of_leaves hleaves with hnone | hdrafted | hrenamed
    · rw [hnone]
      exact .inl rfl
    · exact .inl (hdrafted.itemAt? hsound hextension)
    · exact .inr (hrenamed.itemAt? hsound)
  · have hcases := cases_of_replace path ps d
    rcases hreplace : replace path ps d with ⟨f | _, d'⟩
    · rw [hreplace] at hcases
      rcases hcases with rfl | hdrafted
      · rfl
      · exact hdrafted.itemAt? hsound hextension
    · rw [hreplace] at hcases
      exact hcases.itemAt? hsound

/-- A file that is no journal, replaced by a journal of one record. -/
theorem replace_atomic_of_oneFile :
    (oneFile [111]).Sound ∧ logPath.extension? ≠ some "tmp" ∧
      (∀ k, Leaves { disk := oneFile [111], file := none } (rewriteSteps logPath [[97]]) k →
        k.disk.itemAt? logPath = (oneFile [111]).itemAt? logPath ∨
          k.disk.itemAt? logPath = some (.file (encode [[97]]))) ∧
      match replace logPath [[97]] (oneFile [111]) with
      | (.ok (), d') => d'.itemAt? logPath = some (.file (encode [[97]]))
      | (.error _, d') => d'.itemAt? logPath = (oneFile [111]).itemAt? logPath :=
  have hsound := (holds_oneFile [111]).sound
  have hextension : logPath.extension? ≠ some "tmp" := by decide +kernel
  ⟨hsound, hextension, replace_atomic hsound hextension [[97]]⟩

/-! ### A journal that is its own sibling -/

/-- A file that is created where it is already is emptied. -/
theorem Holds.create (h : Holds d path above name id bytes) :
    d.create path = .ok (id, d.setContent id []) ∧
      Holds (d.setContent id []) path above name id [] := by
  constructor
  · rw [Disk.create, h.leads.obtain (Disk.isLeaf_of_file h.node), h.node]
    rfl
  · exact
      { sound := h.sound.setContent id []
        leads := h.leads.keeps (Disk.keeps_setContent d id [])
        node := h.node
        content := Disk.content_setContent_self (h.sound.lt_size h.node) }

/-- **A journal that is its own sibling is emptied** before there is a new one. -/
theorem emptied_of_own_sibling {slash : Bool} (h : Holds d path.temporary above name id bytes)
    (hgoal : d.goal path = .ok (.entry above name slash)) (ps : List Bytes) :
    ∃ k, Leaves { disk := d, file := none } (rewriteSteps path ps) k ∧
      k.disk.itemAt? path = some (.file []) := by
  obtain ⟨rest, hsteps⟩ : ∃ rest, rewriteSteps path ps = .create path.temporary :: rest := by
    cases hfits : ps.all fits with
    | true => exact ⟨_, rewriteSteps_of_fits hfits⟩
    | false => exact ⟨_, rewriteSteps_of_not_fits hfits⟩
  obtain ⟨hcreate, hempty⟩ := h.create
  refine ⟨{ disk := d.setContent id [], file := some id }, ?_, ?_⟩
  · rw [hsteps]
    refine .step ?_ (.none _ rest)
    simp only [Step.run, hcreate, Except.map]
  · rw [Disk.itemAt?_of_goal ((Disk.keeps_setContent d id []).goal hgoal), hempty.item?]

/-- **A journal that is its own sibling is lost** where a slash stands behind its name: the new one
is there already when the rename fails. -/
theorem replaced_of_own_sibling (h : Holds d path.temporary above name id bytes)
    (hgoal : d.goal path = .ok (.entry above name true)) (hfits : ∀ p ∈ ps, fits p = true) :
    (replace path ps d).1 = .error (.io .notADirectory) ∧
      (replace path ps d).2.itemAt? path = some (.file (encode ps)) := by
  obtain ⟨hcreate, hempty⟩ := h.create
  have hholds := hempty.write (encode ps)
  have hgoal' := ((Disk.keeps_setContent d id []).trans
    (Disk.keeps_write _ id (encode ps))).goal hgoal
  have hrename : ((d.setContent id []).write id (encode ps)).rename path.temporary path =
      .error .notADirectory := by
    simp [Disk.rename, Disk.hasNul_of_goal hholds.leads.goal, Disk.hasNul_of_goal hgoal',
      hholds.leads.goal, hgoal', hholds.leads.child, hholds.node]
  rw [replace_eq hfits, hcreate]
  simp only [hrename]
  refine ⟨trivial, ?_⟩
  rw [Disk.itemAt?_of_goal hgoal', hholds.item?, List.nil_append]

/-- A disk with nothing on it but one file that has the extension of temporary files. -/
def oneTemporary (bytes : Bytes) : Disk :=
  (Disk.empty.addFile ["home", "x.tmp"]).2.setContent 0 bytes

/-- The name of that file, and the same with a slash behind it. -/
def temporaryPath (slash : Bool) : Path where
  parts := if slash then ["x.tmp", ""] else ["x.tmp"]

theorem temporary_temporaryPath (slash : Bool) :
    (temporaryPath slash).temporary = temporaryPath false := by
  cases slash <;> decide +kernel

theorem holds_oneTemporary (bytes : Bytes) (slash : Bool) :
    Holds (oneTemporary bytes) (temporaryPath slash).temporary ["home"] "x.tmp" 0 bytes where
  sound := ((Disk.sound_under ["home"]).addFile _).setContent _ _
  leads := by
    rw [temporary_temporaryPath]
    exact (⟨by simp, by decide, by decide, by decide, by decide⟩ : Disk.IsName "x.tmp").leads
  node := rfl
  content := Disk.content_setContent_self (by decide)

theorem goal_oneTemporary (bytes : Bytes) (slash : Bool) :
    (oneTemporary bytes).goal (temporaryPath slash) = .ok (.entry ["home"] "x.tmp" slash) := by
  have hnul : (temporaryPath slash).hasNul = false := by
    cases slash <;> simp [temporaryPath, Path.hasNul]
  have hfault : (temporaryPath slash).fault? = none := by
    rw [Path.fault?, hnul]
    cases slash <;> decide +kernel
  have hnames : (temporaryPath slash).names = ["x.tmp"] := by cases slash <;> decide +kernel
  have hslash : (temporaryPath slash).endsInSlash = slash := by cases slash <;> decide +kernel
  have hstart : Disk.startFrom (oneTemporary bytes).home (temporaryPath slash) = ["home"] := by
    cases slash <;> rfl
  rw [Disk.goal, Disk.finish_eq_ok_iff, hnames, hslash, hstart]
  exact ⟨hfault, .last (by decide) (by decide) (by simp)⟩

/-- **A replacement is not always atomic**: the old journal is gone in the middle of one that
succeeds, and at the end of one that fails. -/
theorem not_atomic_of_temporary :
    (oneTemporary [111]).itemAt? (temporaryPath false) = some (.file [111]) ∧
      (∃ k, Leaves { disk := oneTemporary [111], file := none }
          (rewriteSteps (temporaryPath false) [[97]]) k ∧
        k.disk.itemAt? (temporaryPath false) = some (.file [])) ∧
      (oneTemporary [111]).itemAt? (temporaryPath true) = some (.file [111]) ∧
      (replace (temporaryPath true) [[97]] (oneTemporary [111])).1 = .error (.io .notADirectory) ∧
      (replace (temporaryPath true) [[97]] (oneTemporary [111])).2.itemAt? (temporaryPath true) =
        some (.file (encode [[97]])) ∧
      encode [[97]] ≠ [111] := by
  have hholds := holds_oneTemporary [111]
  have hgoal := goal_oneTemporary [111]
  have hfits : ∀ p ∈ [[97]], fits p = true := by decide
  have hbefore : ∀ slash,
      (oneTemporary [111]).itemAt? (temporaryPath slash) = some (.file [111]) := by
    intro slash
    rw [Disk.itemAt?_of_goal (hgoal slash), (hholds slash).item?]
  obtain ⟨herror, hafter⟩ := replaced_of_own_sibling (hholds true) (hgoal true) hfits
  refine ⟨hbefore false, emptied_of_own_sibling (hholds false) (hgoal false) _, hbefore true,
    herror, hafter, ?_⟩
  intro hencode
  cases congrArg List.head? hencode

end CommandLog.Journal
