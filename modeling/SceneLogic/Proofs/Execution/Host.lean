import SceneLogic.Execution.Builtin
import SceneLogic.Execution.Host

/-!
# Scenes that run side by side

The scenes of a host share its registry and nothing else.  What is done to one of them leaves
every other as it was, so a scene takes the same step whether or not others have taken theirs
before.  When all scenes are to take a step, the order in which they do so only decides which
of them are reached before one fails.

## Main definitions

* `Host.WellFormed` — no id is in use twice, and new ids are above those in use.
* `HostUpdate` — what can be done to a host; `Host.after` does one thing after another.
* `Host.Stepped` — a host in which some scenes have taken a step of their own.

## Main statements

* `HostUpdate.scene?_apply` — an update leaves every other scene as it was.
* `Host.Stepped.step` — one more scene takes a step.
* `Host.stepIds_cases` — what steps one after another come to.
* `Host.scenes_isolated` — scenes are isolated, in whatever order they take their steps.
-/

namespace SceneLogic

namespace Host

variable {host current : Host} {id other : SceneId} {scene : Scene}

/-! ## Look-up -/

/-- A scene that was replaced is found in its place. -/
theorem scene?_setScene (h : host.scene? id = some scene) (other : Scene) :
    (host.setScene id other).scene? id = some other := by
  simp only [scene?, setScene] at h ⊢
  generalize host.scenes = scenes at h ⊢
  induction scenes with
  | nil => cases h
  | cons entry rest ih =>
    obtain ⟨first, kept⟩ := entry
    rw [List.map_cons]
    by_cases heq : first = id
    · simp [heq]
    · rw [if_neg heq, lookup_entry, if_neg (Ne.symm heq)]
      rw [lookup_entry, if_neg (Ne.symm heq)] at h
      exact ih h

/-- The others are found as they were. -/
theorem scene?_setScene_of_ne (hne : other ≠ id) (scene : Scene) :
    (host.setScene id scene).scene? other = host.scene? other := by
  simp only [scene?, setScene]
  induction host.scenes with
  | nil => rfl
  | cons entry rest ih =>
    obtain ⟨first, kept⟩ := entry
    rw [List.map_cons, lookup_entry]
    by_cases heq : first = id
    · subst heq
      rw [if_pos rfl, lookup_entry, if_neg hne, if_neg hne, ih]
    · rw [if_neg heq, lookup_entry, ih]

theorem step_of_scene? (h : host.scene? id = some scene) :
    host.step id = ((scene.step host.registry host.timeStep).1.mapError .failed,
      host.setScene id (scene.step host.registry host.timeStep).2) := by
  simp only [step, h]

theorem step_of_scene?_eq_none (h : host.scene? id = none) :
    host.step id = (.error .notRunning, host) := by
  simp only [step, h]

theorem scene?_step_of_ne (hne : other ≠ id) :
    (host.step id).2.scene? other = host.scene? other := by
  cases hscene : host.scene? id with
  | none => rw [step_of_scene?_eq_none hscene]
  | some scene =>
    rw [step_of_scene? hscene]
    exact scene?_setScene_of_ne hne _

/-! ## Updates -/

/-- No id is in use twice, and a new id is above all in use. -/
structure WellFormed (host : Host) : Prop where
  nodup : host.ids.Nodup
  lt : ∀ id ∈ host.ids, id < host.nextId

theorem scene?_eq_none (h : id ∉ host.ids) : host.scene? id = none := by
  simp only [scene?, List.lookup_eq_none_iff, bne_iff_ne]
  intro entry hentry heq
  exact h (List.mem_map.2 ⟨entry, hentry, heq.symm⟩)

theorem WellFormed.scene?_nextId (hhost : host.WellFormed) : host.scene? host.nextId = none :=
  scene?_eq_none fun hmem => Nat.lt_irrefl _ (hhost.lt host.nextId hmem)

theorem WellFormed.scene?_start (hhost : host.WellFormed) (scene : Scene) :
    (host.start scene).2.scene? host.nextId = some scene := by
  have hnone : host.scenes.lookup host.nextId = none := hhost.scene?_nextId
  simp only [start, scene?, List.lookup_append, hnone, lookup_entry, if_true, Option.none_or]

theorem ids_setScene (host : Host) (id : SceneId) (scene : Scene) :
    (host.setScene id scene).ids = host.ids := by
  simp only [ids, setScene, List.map_map]
  refine List.map_congr_left fun entry _ => ?_
  simp only [Function.comp]
  split
  next heq => exact heq.symm
  next => rfl

theorem WellFormed.setScene (hhost : host.WellFormed) (id : SceneId) (scene : Scene) :
    (host.setScene id scene).WellFormed where
  nodup := ids_setScene host id scene ▸ hhost.nodup
  lt := ids_setScene host id scene ▸ hhost.lt

end Host

/-- What can be done to a host: a scene is started, stopped, changed in whatever way, or takes
a step. -/
inductive HostUpdate where
  | start (scene : Scene)
  | stop (id : SceneId)
  | change (id : SceneId) (scene : Scene)
  | step (id : SceneId)

namespace HostUpdate

/-- Do it. -/
def apply (host : Host) : HostUpdate → Host
  | start scene => (host.start scene).2
  | stop id => (host.stop id).2
  | change id scene => host.setScene id scene
  | step id => (host.step id).2

/-- The id of the scene to which it is done. -/
def id (host : Host) : HostUpdate → SceneId
  | start scene => (host.start scene).1
  | stop id | change id _ | step id => id

variable {host : Host}

/-- An update leaves every other scene as it was. -/
theorem scene?_apply (update : HostUpdate) {other : SceneId} (hne : other ≠ update.id host) :
    (update.apply host).scene? other = host.scene? other := by
  cases update with
  | start scene =>
    have hnew : ([(host.nextId, scene)] : List (SceneId × Scene)).lookup other = none := by
      rw [lookup_entry]
      exact if_neg hne
    simp only [apply, Host.start, Host.scene?, List.lookup_append, hnew, Option.or_none]
  | stop id =>
    simp only [apply, Host.stop, Host.scene?, lookup_erase]
    exact if_neg hne
  | change id scene => exact Host.scene?_setScene_of_ne hne scene
  | step id => exact Host.scene?_step_of_ne hne

/-- An update keeps ids apart. -/
theorem wellFormed_apply (update : HostUpdate) (hhost : host.WellFormed) :
    (update.apply host).WellFormed := by
  cases update with
  | start scene =>
    have hids : (host.start scene).2.ids = host.ids ++ [host.nextId] := List.map_append
    constructor
    · rw [apply, hids]
      refine List.nodup_append.2 ⟨hhost.nodup, by simp, ?_⟩
      rintro id hmem other hother rfl
      rw [List.mem_singleton.1 hother] at hmem
      exact Nat.lt_irrefl _ (hhost.lt _ hmem)
    · intro id hmem
      rw [apply, hids] at hmem
      rcases List.mem_append.1 hmem with hold | hnew
      · exact Nat.lt_succ_of_lt (hhost.lt id hold)
      · rw [List.mem_singleton.1 hnew]
        exact Nat.lt_succ_self host.nextId
  | stop id =>
    have hids : ((host.stop id).2.ids).Sublist host.ids := List.filter_sublist.map _
    exact ⟨hhost.nodup.sublist hids, fun other hmem => hhost.lt other (hids.subset hmem)⟩
  | change id scene => exact hhost.setScene id scene
  | step id =>
    simp only [apply, Host.step]
    split
    next => exact hhost
    next scene _ => exact hhost.setScene id _

end HostUpdate

namespace Host

variable {host current : Host} {id : SceneId} {done : List SceneId}

/-- A host without scenes, after updates. -/
def after (registry : Registry) (timeStep : Seconds) (updates : List HostUpdate) : Host :=
  updates.foldl HostUpdate.apply (new registry timeStep)

/-- However a host came about, its ids are apart. -/
theorem wellFormed_after (registry : Registry) (timeStep : Seconds) (updates : List HostUpdate) :
    (after registry timeStep updates).WellFormed := by
  have hnew : (new registry timeStep).WellFormed := ⟨List.nodup_nil, nofun⟩
  simp only [after]
  generalize new registry timeStep = host at hnew ⊢
  induction updates generalizing host with
  | nil => exact hnew
  | cons update rest ih => exact ih _ (update.wellFormed_apply hnew)

/-! ## One step after another -/

/-- A host in which the scenes with these ids have taken the step that they would have taken
on their own, and the others have not. -/
structure Stepped (host : Host) (done : List SceneId) (current : Host) : Prop where
  registry : current.registry = host.registry
  timeStep : current.timeStep = host.timeStep
  stepped : ∀ id ∈ done, current.scene? id = (host.step id).2.scene? id
  waiting : ∀ id, id ∉ done → current.scene? id = host.scene? id

namespace Stepped

theorem refl (host : Host) : host.Stepped [] host := ⟨rfl, rfl, nofun, fun _ _ => rfl⟩

/-- A scene that has not taken its step takes the one that it would have taken on its own. -/
theorem step_eq (h : host.Stepped done current) (hwaiting : id ∉ done) :
    (current.step id).1 = (host.step id).1 ∧
      (current.step id).2.scene? id = (host.step id).2.scene? id := by
  have hsame := h.waiting id hwaiting
  cases hscene : host.scene? id with
  | none =>
    rw [hscene] at hsame
    rw [step_of_scene?_eq_none hscene, step_of_scene?_eq_none hsame, hscene]
    exact ⟨rfl, hsame⟩
  | some scene =>
    rw [hscene] at hsame
    rw [step_of_scene? hscene, step_of_scene? hsame, scene?_setScene hscene,
      scene?_setScene hsame, h.registry, h.timeStep]
    exact ⟨rfl, rfl⟩

/-- One more scene takes its step. -/
theorem step (h : host.Stepped done current) (hwaiting : id ∉ done) :
    host.Stepped (done ++ [id]) (current.step id).2 := by
  have hframe : (current.step id).2.registry = current.registry ∧
      (current.step id).2.timeStep = current.timeStep := by
    simp only [Host.step]
    split <;> exact ⟨rfl, rfl⟩
  refine ⟨hframe.1.trans h.registry, hframe.2.trans h.timeStep, fun other hmem => ?_,
    fun other hmem => ?_⟩
  · rcases List.mem_append.1 hmem with hdone | hlast
    · have hne : other ≠ id := fun heq => hwaiting (heq ▸ hdone)
      rw [scene?_step_of_ne hne, h.stepped other hdone]
    · rw [List.mem_singleton.1 hlast]
      exact (h.step_eq hwaiting).2
  · simp only [List.mem_append, List.mem_singleton, not_or] at hmem
    rw [scene?_step_of_ne hmem.2, h.waiting other hmem.1]

end Stepped

/-- Steps one after another all succeed, or one of them is the first to fail and the last to
be taken.  Each scene takes the step that it would have taken on its own. -/
theorem stepIds_cases {order : List SceneId} (hstepped : host.Stepped done current)
    (hnodup : (done ++ order).Nodup) :
    ((∀ id ∈ order, (host.step id).1 = .ok ()) ∧ (current.stepIds order).1 = .ok () ∧
      host.Stepped (done ++ order) (current.stepIds order).2) ∨
    ∃ first failing rest error, order = first ++ failing :: rest ∧
      (∀ id ∈ first, (host.step id).1 = .ok ()) ∧ (host.step failing).1 = .error error ∧
      (current.stepIds order).1 = .error error ∧
      host.Stepped (done ++ first ++ [failing]) (current.stepIds order).2 := by
  induction order generalizing current done with
  | nil => exact .inl ⟨nofun, rfl, by rwa [List.append_nil]⟩
  | cons id rest ih =>
    have hwaiting : id ∉ done := fun hmem =>
      (List.nodup_append.1 hnodup).2.2 id hmem id List.mem_cons_self rfl
    have hnext := hstepped.step hwaiting
    have hresult := (hstepped.step_eq hwaiting).1
    rw [List.append_cons] at hnodup
    simp only [stepIds]
    rcases hstep : current.step id with ⟨error | _, next⟩
    · rw [hstep] at hnext hresult
      exact .inr ⟨[], id, rest, error, rfl, nofun, hresult.symm, rfl, by rwa [List.append_nil]⟩
    · rw [hstep] at hnext hresult
      rcases ih hnext hnodup with ⟨hall, hok, hfinal⟩ |
        ⟨first, failing, left, error, rfl, hfirst, hfailing, herror, hfinal⟩
      · refine .inl ⟨List.forall_mem_cons.2 ⟨hresult.symm, hall⟩, hok, ?_⟩
        rwa [List.append_cons]
      · refine .inr ⟨id :: first, failing, left, error, rfl,
          List.forall_mem_cons.2 ⟨hresult.symm, hfirst⟩, hfailing, herror, ?_⟩
        rwa [List.append_cons done]

/-! ## Isolation -/

/-- **Scenes are isolated, in whatever order they take their steps.**  Take a host whose ids
are apart, which is kept by all that can be done to it.  A scene that is started gets an id
that is not in use.  Starting, stopping and changing a scene, and a step of it, leave every
other scene exactly as it was.  If every scene would succeed in taking a step on its own, then
they succeed in any order, and each is left as by that one step.  Otherwise some scene that
would fail is the last to take its step, and its error is the outcome: the scenes before it in
the order have succeeded in the step that they would have taken on their own, it is left as by
its own step, and the scenes behind it are as they were. -/
theorem scenes_isolated {host : Host} (hhost : host.WellFormed) :
    (∀ update : HostUpdate, (update.apply host).WellFormed ∧
      ∀ other, other ≠ update.id host → (update.apply host).scene? other = host.scene? other) ∧
    (∀ scene, host.scene? (host.start scene).1 = none ∧
      (host.start scene).2.scene? (host.start scene).1 = some scene) ∧
    host.stepAll = host.stepIds host.ids ∧
    ∀ order : List SceneId, order.Perm host.ids →
      ((∀ id ∈ host.ids, (host.step id).1 = .ok ()) → (host.stepIds order).1 = .ok () ∧
        ∀ id, (host.stepIds order).2.scene? id = (host.step id).2.scene? id) ∧
      ((∃ id ∈ host.ids, (host.step id).1 ≠ .ok ()) →
        ∃ first failing rest error, order = first ++ failing :: rest ∧
          (host.stepIds order).1 = .error error ∧ (host.step failing).1 = .error error ∧
          (∀ id ∈ first, (host.step id).1 = .ok ()) ∧
          (∀ id ∈ first ++ [failing],
            (host.stepIds order).2.scene? id = (host.step id).2.scene? id) ∧
          ∀ id, id ∉ first ++ [failing] → (host.stepIds order).2.scene? id = host.scene? id) := by
  refine ⟨fun update => ⟨update.wellFormed_apply hhost, fun _ => update.scene?_apply⟩,
    fun scene => ⟨hhost.scene?_nextId, hhost.scene?_start scene⟩, rfl, fun order hperm => ?_⟩
  have hcases := stepIds_cases (Stepped.refl host) (hperm.nodup_iff.2 hhost.nodup)
  constructor
  · intro hall
    rcases hcases with ⟨-, hok, hfinal⟩ | ⟨first, failing, rest, error, rfl, -, hfailing, -⟩
    · refine ⟨hok, fun id => ?_⟩
      by_cases hmem : id ∈ order
      · exact hfinal.stepped id hmem
      · have hnone := scene?_eq_none (fun hid => hmem (hperm.mem_iff.2 hid))
        rw [step_of_scene?_eq_none hnone]
        exact hfinal.waiting id hmem
    · have hmem : failing ∈ host.ids := hperm.mem_iff.1 (by simp)
      rw [hall failing hmem] at hfailing
      cases hfailing
  · rintro ⟨id, hid, hfails⟩
    rcases hcases with ⟨hall, -⟩ |
      ⟨first, failing, rest, error, horder, hfirst, hfailing, herror, hfinal⟩
    · exact absurd (hall id (hperm.mem_iff.2 hid)) hfails
    · exact ⟨first, failing, rest, error, horder, herror, hfailing, hfirst, hfinal.stepped,
        hfinal.waiting⟩

/-- A scene with one event, which carries out this action. -/
def actingScene (action : Instruction) : Scene :=
  { Scene.named "scene" with
    events := [.branch ⟨false, false⟩ (.standard ⟨[], [action]⟩) []] }

/-- A scene that sets a variable of its own. -/
def markingScene : Scene := actingScene ⟨"variables/Set", ["seen", "1"], false⟩

/-- A scene that calls a function that there is not. -/
def callingScene : Scene := actingScene ⟨callOperation, ["Missing"], false⟩

/-- The updates by which a host came to run two scenes that mark themselves, with one between
them that fails; one more scene was stopped. -/
def threeStarted : List HostUpdate :=
  [.start markingScene, .start callingScene, .start markingScene, .start markingScene, .stop 3]

/-- Taken from the last scene to the first, the steps end with the one that fails: the last
scene has taken its own step, and the first none.  After the one that fails was exchanged for
another, all scenes take their steps in that order. -/
theorem scenes_isolated_of_threeStarted :
    let host := after .builtin .zero threeStarted
    let calm := HostUpdate.apply host (.change 1 markingScene)
    (host.stepIds [2, 1, 0]).1 = .error (.failed (.functionNotFound "Missing")) ∧
      (host.stepIds [2, 1, 0]).2.scene? 2 = (host.step 2).2.scene? 2 ∧
      (host.stepIds [2, 1, 0]).2.scene? 0 = some markingScene ∧
      calm.scene? 0 = some markingScene ∧ (calm.stepIds [2, 1, 0]).1 = .ok () ∧
      ∀ id, (calm.stepIds [2, 1, 0]).2.scene? id = (calm.step id).2.scene? id := by
  intro host calm
  have hhost : host.WellFormed := wellFormed_after .builtin .zero threeStarted
  have hfails : (host.step 1).1 = .error (.failed (.functionNotFound "Missing")) := by
    decide +kernel
  have hlast : (host.step 2).1 = .ok () := by decide +kernel
  obtain ⟨hchange, -, -, hsteps⟩ := scenes_isolated hhost
  obtain ⟨hcalm, hothers⟩ := hchange (.change 1 markingScene)
  obtain ⟨-, hfailure⟩ := hsteps [2, 1, 0] (by decide)
  obtain ⟨first, failing, rest, error, horder, herror, hown, hfirst, hdone, hrest⟩ :=
    hfailure ⟨1, by decide, by rw [hfails]; nofun⟩
  obtain ⟨hsucceed, -⟩ := (scenes_isolated hcalm).2.2.2 [2, 1, 0] (by decide)
  obtain ⟨hok, hsteps⟩ := hsucceed (by decide +kernel)
  have hzero : host.scene? 0 = some markingScene := by decide +kernel
  rcases first with _ | ⟨_, _ | ⟨second, left⟩⟩
  · cases horder
    rw [hlast] at hown
    cases hown
  · cases horder
    refine ⟨herror.trans (hown.symm.trans hfails), hdone 2 (by decide), ?_, ?_, hok, hsteps⟩
    · exact (hrest 0 (by decide)).trans hzero
    · exact (hothers 0 (by decide)).trans hzero
  · have hsecond : second = 1 := (List.cons.inj (List.cons.inj horder).2).1.symm
    have hearly := hfirst second (by simp)
    rw [hsecond, hfails] at hearly
    cases hearly

end Host

end SceneLogic
