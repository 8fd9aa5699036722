import AlbIngress.Sg.Controller

/-!
Runs of the security-group controller against EC2, and what `Delete` leaves.

EC2 keeps group IDs and group names distinct: `CreateSecurityGroup` refuses a name in use
and gives an ID no group has, and the other calls change a group's permissions or tags, or
delete it. Every `Reconcile` and `Delete`, whatever fails in it, keeps the groups distinct
(`Distinct.reconcile`, `Distinct.delete`), and so does every run of them on any specs
(`Distinct.runOps`).

`Delete` "ensures the securityGroup does not exist": when it succeeds, the group the spec
identifies is gone and no other group changed (`delete_ok`). Repeating it is another
matter. On a spec with only a name the repeat finds no group and succeeds without a call;
on a spec with an ID, which is what a successful `Reconcile` leaves in the caller's spec
(`reconcile_ok_groupID`), the repeat deletes the ID again and EC2 answers
`InvalidGroup.NotFound` (`delete_repeat`, `reconcile_delete_twice`). The names are distinct
in every cloud a run reaches from one where they are, so the repeat by name succeeds there
(`delete_by_name_repeat_after_runs`).
-/

namespace AlbIngress.Sg

/-- The groups have distinct IDs and distinct names. -/
def Distinct (gs : List SecurityGroupInstance) : Prop :=
  (gs.map (·.groupId)).Nodup ∧ (gs.map (·.groupName)).Nodup

instance (gs : List SecurityGroupInstance) : Decidable (Distinct gs) :=
  inferInstanceAs (Decidable (_ ∧ _))

/-! ### One call -/

section Step

variable {w : World}

/-- A call that changes a group's permissions or tags keeps the groups distinct. The groups
are named apart from the world, which the call's own spec may differ in. -/
theorem Distinct.mutateGroup {gs : List SecurityGroupInstance} (h : Distinct gs) (hw : w.groups = gs)
    (call : Call) (fault : Bool) (id : String) {f : SecurityGroupInstance → SecurityGroupInstance}
    (hid : ∀ x, (f x).groupId = x.groupId) (hname : ∀ x, (f x).groupName = x.groupName) :
    Distinct (mutateGroup w call fault id f).2.groups := by
  subst hw
  have hmap : ∀ p : SecurityGroupInstance → String, (∀ x, p (f x) = p x) →
      (w.groups.map fun g => if g.groupId = id then f g else g).map p = w.groups.map p :=
    fun p hp => by
      rw [List.map_map]
      exact List.map_congr_left fun g _ => by simp only [Function.comp_apply]; split_ifs <;> simp [hp]
  unfold AlbIngress.Sg.mutateGroup
  dsimp only
  split_ifs
  · exact h
  · exact ⟨by rw [hmap _ hid]; exact h.1, by rw [hmap _ hname]; exact h.2⟩
  · exact h

theorem Distinct.deleteSecurityGroupByID (h : Distinct w.groups) (fs : Faults) (id : String) :
    Distinct (deleteSecurityGroupByID fs w id).2.groups := by
  unfold AlbIngress.Sg.deleteSecurityGroupByID
  dsimp only
  split_ifs
  · exact h
  · exact ⟨h.1.sublist ((List.filter_sublist _).map _), h.2.sublist ((List.filter_sublist _).map _)⟩
  · exact h

theorem Distinct.createSecurityGroup (h : Distinct w.groups) (fs : Faults) (name : Option String) :
    Distinct (createSecurityGroup fs w name).2.groups := by
  unfold AlbIngress.Sg.createSecurityGroup
  dsimp only
  split_ifs
  · exact h
  · split
    · exact h
    · next n =>
      split_ifs with hany
      · exact h
      · simp only [Distinct, List.map_append, List.map_cons, List.map_nil]
        refine ⟨List.nodup_append.mpr ⟨h.1, List.nodup_singleton _, fun x hx hx' => ?_⟩,
          List.nodup_append.mpr ⟨h.2, List.nodup_singleton _, fun x hx hx' => ?_⟩⟩
        · obtain ⟨g, hg, rfl⟩ := List.mem_map.mp hx
          exact freshGroupId_fresh hg (List.mem_singleton.mp hx')
        · obtain ⟨g, hg, rfl⟩ := List.mem_map.mp hx
          exact hany (List.any_eq_true.mpr ⟨g, hg, by simpa using List.mem_singleton.mp hx'⟩)

/-- A call made only when its permission list is not empty: what holds of the world before
it, and of the world the call leaves, holds after it. -/
theorem guarded_world {P : World → Prop} {c : Prop} [Decidable c] {x : Except String Unit × World}
    {r : Except String Unit} {w₁ : World} (he : (if c then x else (.ok (), w)) = (r, w₁))
    (h : P w) (hx : P x.2) : P w₁ := by
  split_ifs at he
  · rwa [he] at hx
  · cases he
    exact h

theorem Distinct.guarded {c : Prop} [Decidable c] {x : Except String Unit × World}
    {r : Except String Unit} {w₁ : World} (he : (if c then x else (.ok (), w)) = (r, w₁))
    (h : Distinct w.groups) (hx : Distinct x.2.groups) : Distinct w₁.groups :=
  guarded_world (P := fun v => Distinct v.groups) he h hx

theorem Distinct.reconcileByNewSGInstance (h : Distinct w.groups) (fs : Faults) :
    Distinct (reconcileByNewSGInstance fs w).2.groups := by
  have hc := Distinct.createSecurityGroup h fs w.spec.groupName
  unfold AlbIngress.Sg.reconcileByNewSGInstance
  rcases h₁ : AlbIngress.Sg.createSecurityGroup fs w w.spec.groupName with ⟨e | id, w₁⟩ <;>
    rw [h₁] at hc <;> simp only [h₁]
  · exact hc
  · have ha : Distinct (authorizeSecurityGroupIngress fs
        { w₁ with spec := { w₁.spec with groupID := some id } } id w₁.spec.inboundPermissions).2.groups := by
      apply Distinct.mutateGroup hc <;> (try intro _) <;> rfl
    rcases h₂ : authorizeSecurityGroupIngress fs { w₁ with spec := { w₁.spec with groupID := some id } }
      id w₁.spec.inboundPermissions with ⟨e | _, w₂⟩ <;> rw [h₂] at ha <;> simp only [h₂]
    · exact ha
    · apply Distinct.mutateGroup ha <;> (try intro _) <;> rfl

theorem Distinct.reconcileByModifySGInstance (h : Distinct w.groups) (fs : Faults)
    (inst : SecurityGroupInstance) : Distinct (reconcileByModifySGInstance fs w inst).2.groups := by
  unfold AlbIngress.Sg.reconcileByModifySGInstance
  dsimp only
  split
  · next e w₁ h₁ =>
    refine Distinct.guarded h₁ h ?_
    apply Distinct.mutateGroup h <;> (try intro _) <;> rfl
  · next w₁ h₁ =>
    have h₁' : Distinct w₁.groups := by
      refine Distinct.guarded h₁ h ?_
      apply Distinct.mutateGroup h <;> (try intro _) <;> rfl
    split
    · next e w₂ h₂ =>
      refine Distinct.guarded h₂ h₁' ?_
      apply Distinct.mutateGroup h₁' <;> (try intro _) <;> rfl
    · next w₂ h₂ =>
      refine Distinct.guarded h₂ h₁' ?_
      apply Distinct.mutateGroup h₁' <;> (try intro _) <;> rfl

theorem Distinct.reconcile (h : Distinct w.groups) (fs : Faults) :
    Distinct (reconcile fs w).2.groups := by
  unfold AlbIngress.Sg.reconcile
  split
  · exact h
  · exact h.reconcileByModifySGInstance fs _
  · exact h.reconcileByNewSGInstance fs

theorem Distinct.delete (h : Distinct w.groups) (fs : Faults) : Distinct (delete fs w).2.groups := by
  unfold AlbIngress.Sg.delete
  split
  · exact h.deleteSecurityGroupByID fs _
  · split
    · exact h
    · exact h.deleteSecurityGroupByID fs _
    · exact h

end Step

/-! ### Runs -/

/-- A call of the controller, on the spec it is given. -/
inductive Op
  | reconcile (spec : SecurityGroup)
  | delete (spec : SecurityGroup)
  deriving DecidableEq, Repr

/-- The world after a run of controller calls, each on its spec and with its faults. -/
def runOps (w : World) : List (Op × Faults) → World
  | [] => w
  | (.reconcile g, fs) :: ops => runOps (reconcile fs { w with spec := g }).2 ops
  | (.delete g, fs) :: ops => runOps (delete fs { w with spec := g }).2 ops

theorem Distinct.runOps {w : World} (h : Distinct w.groups) (ops : List (Op × Faults)) :
    Distinct (runOps w ops).groups := by
  induction ops generalizing w with
  | nil => exact h
  | cons op ops ih =>
    obtain ⟨op, fs⟩ := op
    cases op with
    | reconcile g => exact ih (Distinct.reconcile (w := { w with spec := g }) h fs)
    | delete g => exact ih (Distinct.delete (w := { w with spec := g }) h fs)

/-! ### `Delete` -/

theorem deleteSecurityGroupByID_ok {fs : Faults} {w : World} {id : String}
    (h : (deleteSecurityGroupByID fs w id).1 = .ok ()) :
    (deleteSecurityGroupByID fs w id).2 = { w with
      calls := w.calls ++ [.deleteSecurityGroupByID id]
      groups := w.groups.filter (·.groupId ≠ id) } := by
  unfold AlbIngress.Sg.deleteSecurityGroupByID at h ⊢
  dsimp only at h ⊢
  split_ifs at h ⊢
  rfl

/-- Deleting an ID no group has: EC2 answers `InvalidGroup.NotFound`. -/
theorem deleteSecurityGroupByID_missing {w : World} {id : String}
    (h : ∀ g ∈ w.groups, g.groupId ≠ id) :
    deleteSecurityGroupByID Faults.none w id =
      (.error ("InvalidGroup.NotFound: " ++ id), { w with calls := w.calls ++ [.deleteSecurityGroupByID id] }) := by
  have hany : w.groups.any (·.groupId == id) = false := by simpa using h
  simp only [AlbIngress.Sg.deleteSecurityGroupByID, Faults.none, hany]
  rfl

/-- A `Delete` that succeeds removes the group the spec identifies, and only it, and leaves
the spec as it was. -/
theorem delete_ok {fs : Faults} {w : World} (hok : (delete fs w).1 = .ok ()) :
    (delete fs w).2.groups = w.groups.filter (fun g => some g.groupId ≠ identifiedGroup w) ∧
      (delete fs w).2.spec = w.spec := by
  have hfilter : ∀ id, w.groups.filter (·.groupId ≠ id) =
      w.groups.filter (fun g => some g.groupId ≠ some id) :=
    fun id => List.filter_congr fun g _ => by simp
  unfold AlbIngress.Sg.delete at hok ⊢
  split
  · next id hid =>
    rw [hid] at hok
    have hid' : identifiedGroup w = some id := by simp [identifiedGroup, hid]
    rw [deleteSecurityGroupByID_ok hok, hid', hfilter]
    exact ⟨rfl, rfl⟩
  · next hid =>
    split
    · next e hfound => simp only [hid, hfound] at hok; cases hok
    · next inst hfound =>
      simp only [hid, hfound] at hok
      rw [deleteSecurityGroupByID_ok hok, identifiedGroup_of_found hfound, hid, Option.getD_none,
        hfilter]
      exact ⟨rfl, rfl⟩
    · next hfound =>
      rw [identifiedGroup_of_not_found hfound]
      exact ⟨(List.filter_eq_self.mpr fun g hg => by
        simpa using freshGroupId_fresh hg).symm, rfl⟩

/-- A call made only when its permission list is not empty keeps the spec. -/
theorem spec_guarded {c : Prop} [Decidable c] {x : Except String Unit × World} {w w₁ : World}
    {r : Except String Unit} (he : (if c then x else (.ok (), w)) = (r, w₁))
    (hx : x.2.spec = w.spec) : w₁.spec = w.spec :=
  guarded_world (P := fun v => v.spec = w.spec) he rfl hx

theorem reconcileByModifySGInstance_groupID (fs : Faults) (w : World) (inst : SecurityGroupInstance) :
    (reconcileByModifySGInstance fs w inst).2.spec.groupID = some (w.spec.groupID.getD inst.groupId) := by
  unfold AlbIngress.Sg.reconcileByModifySGInstance
  dsimp only
  split
  · next e w₁ h₁ => rw [spec_guarded h₁ (mutateGroup_spec _ _ _ _ _)]
  · next w₁ h₁ =>
    split <;> next _ w₂ h₂ =>
      rw [spec_guarded h₂ (mutateGroup_spec _ _ _ _ _), spec_guarded h₁ (mutateGroup_spec _ _ _ _ _)]

/-- A `Reconcile` that succeeds leaves an ID in the caller's spec. -/
theorem reconcile_ok_groupID {fs : Faults} {w : World} (hok : (reconcile fs w).1 = .ok ()) :
    ∃ id, (reconcile fs w).2.spec.groupID = some id := by
  unfold AlbIngress.Sg.reconcile at hok ⊢
  split
  · next e hfound => simp only [hfound] at hok; cases hok
  · exact ⟨_, reconcileByModifySGInstance_groupID fs w _⟩
  · next hfound =>
    simp only [hfound] at hok
    unfold AlbIngress.Sg.reconcileByNewSGInstance at hok ⊢
    split
    · next e w₁ hc => simp only [hc] at hok; cases hok
    · next id w₁ hc =>
      simp only [hc] at hok
      dsimp only at hok ⊢
      split
      · next e w₂ h₂ => simp only [h₂] at hok; cases hok
      · next w₂ h₂ =>
        have hs := congrArg (fun r => r.2.spec) h₂
        simp only [authorizeSecurityGroupIngress, mutateGroup_spec] at hs
        exact ⟨id, by rw [createTags, mutateGroup_spec, ← hs]⟩

/-- With distinct names, a spec with only a name identifies the one group of that name. -/
theorem Distinct.identifiedGroup_of_named {w : World} (h : Distinct w.groups)
    (hid : w.spec.groupID = none) {n : String} (hn : w.spec.groupName = some n)
    {g : SecurityGroupInstance} (hg : g ∈ w.groups) (hgn : g.groupName = n) :
    identifiedGroup w = some g.groupId := by
  obtain ⟨g', hfind⟩ := Option.isSome_iff_exists.mp
    (List.find?_isSome.mpr ⟨g, hg, by simpa using hgn⟩ : (getSecurityGroupByName w.groups n).isSome)
  have hname : g'.groupName = n := by simpa using List.find?_some hfind
  have hsame : g' = g :=
    List.inj_on_of_nodup_map h.2 (List.mem_of_find?_eq_some hfind) hg (hname.trans hgn.symm)
  simp [identifiedGroup, getSecurityGroupByName, hid, hn, hfind, hsame]

section Again

variable {fs : Faults} {w : World} (hok : (delete fs w).1 = .ok ())
include hok

/-- After a `Delete` by ID, deleting the ID again: no group has it any more. -/
theorem delete_again_of_groupID {id : String} (hid : w.spec.groupID = some id) :
    delete Faults.none (delete fs w).2 = (.error ("InvalidGroup.NotFound: " ++ id),
      { (delete fs w).2 with calls := (delete fs w).2.calls ++ [.deleteSecurityGroupByID id] }) := by
  obtain ⟨hgroups, hspec⟩ := delete_ok hok
  have hident : identifiedGroup w = some id := by simp [identifiedGroup, hid]
  have hnone : ∀ g ∈ (delete fs w).2.groups, g.groupId ≠ id := fun g hg => by
    rw [hgroups, hident] at hg
    simpa using (List.mem_filter.mp hg).2
  rw [delete, hspec, hid]
  exact deleteSecurityGroupByID_missing hnone

/-- After a `Delete` by name, with distinct names, the name finds no group any more. -/
theorem delete_again_of_groupName (h : Distinct w.groups) (hid : w.spec.groupID = none)
    {fs' : Faults} (hf : fs'.getByName = false) :
    delete fs' (delete fs w).2 = (.ok (), (delete fs w).2) := by
  obtain ⟨hgroups, hspec⟩ := delete_ok hok
  obtain ⟨n, hn⟩ : ∃ n, w.spec.groupName = some n := by
    cases hn : w.spec.groupName with
    | none => simp [delete, hid, findExistingSGInstance, hn] at hok
    | some n => exact ⟨n, rfl⟩
  have hnone : getSecurityGroupByName (delete fs w).2.groups n = none :=
    List.find?_eq_none.mpr fun g hg hgn => by
      rw [hgroups] at hg
      obtain ⟨hg, hne⟩ := List.mem_filter.mp hg
      exact of_decide_eq_true hne (h.identifiedGroup_of_named hid hn hg (by simpa using hgn)).symm
  rw [delete, hspec, hid]
  simp only [findExistingSGInstance, hspec, hid, hn, hf, hnone]
  rfl

end Again

/-- What a successful `Delete` leaves, and what repeating it does. The identified group, and
only it, is gone. A repeat on a spec with an ID deletes that ID again and EC2 answers
`InvalidGroup.NotFound`; a repeat on a spec with only a name, the names being distinct,
succeeds and changes nothing. -/
theorem delete_repeat (fs : Faults) (w : World) (hok : (delete fs w).1 = .ok ()) :
    (delete fs w).2.groups = w.groups.filter (fun g => some g.groupId ≠ identifiedGroup w) ∧
    (∀ id, w.spec.groupID = some id →
      delete Faults.none (delete fs w).2 = (.error ("InvalidGroup.NotFound: " ++ id),
        { (delete fs w).2 with calls := (delete fs w).2.calls ++ [.deleteSecurityGroupByID id] })) ∧
    (Distinct w.groups → w.spec.groupID = none → ∀ fs' : Faults, fs'.getByName = false →
      delete fs' (delete fs w).2 = (.ok (), (delete fs w).2)) :=
  ⟨(delete_ok hok).1, fun _ hid => delete_again_of_groupID hok hid,
    fun h hid _ hf => delete_again_of_groupName hok h hid hf⟩

theorem delete_repeat_web :
    (delete Faults.none ⟨[⟨"sg-1", "web", [], []⟩], [], ⟨some "sg-1", some "web", []⟩⟩).1 = .ok () ∧
      (delete Faults.none (delete Faults.none
        ⟨[⟨"sg-1", "web", [], []⟩], [], ⟨some "sg-1", some "web", []⟩⟩).2).1 =
        .error "InvalidGroup.NotFound: sg-1" ∧
      (delete Faults.none
        ⟨[⟨"sg-1", "web", [], []⟩, ⟨"sg-2", "db", [], []⟩], [], ⟨none, some "web", []⟩⟩).1 = .ok () ∧
      delete Faults.none (delete Faults.none
          ⟨[⟨"sg-1", "web", [], []⟩, ⟨"sg-2", "db", [], []⟩], [], ⟨none, some "web", []⟩⟩).2 =
        (.ok (), (delete Faults.none
          ⟨[⟨"sg-1", "web", [], []⟩, ⟨"sg-2", "db", [], []⟩], [], ⟨none, some "web", []⟩⟩).2) :=
  ⟨rfl, by
    rw [(delete_repeat Faults.none ⟨[⟨"sg-1", "web", [], []⟩], [], ⟨some "sg-1", some "web", []⟩⟩
      rfl).2.1 "sg-1" rfl]
    rfl, rfl,
    (delete_repeat Faults.none
      ⟨[⟨"sg-1", "web", [], []⟩, ⟨"sg-2", "db", [], []⟩], [], ⟨none, some "web", []⟩⟩ rfl).2.2
      (by decide) rfl Faults.none rfl⟩

/-- From a cloud with distinct groups, after any run of `Reconcile` and `Delete` calls on any
specs with any faults, a `Delete` that succeeds on a spec with only a name, repeated, finds no
group: the repeat succeeds and changes nothing. -/
theorem delete_by_name_repeat_after_runs (w₀ : World) (ops : List (Op × Faults))
    (h₀ : Distinct w₀.groups) (g : SecurityGroup) (hid : g.groupID = none) (fs : Faults)
    (hok : (delete fs { runOps w₀ ops with spec := g }).1 = .ok ()) (fs' : Faults)
    (hf : fs'.getByName = false) :
    delete fs' (delete fs { runOps w₀ ops with spec := g }).2 =
      (.ok (), (delete fs { runOps w₀ ops with spec := g }).2) :=
  delete_again_of_groupName hok (Distinct.runOps h₀ ops) hid hf

theorem delete_by_name_repeat_after_runs_web :
    let w := runOps ⟨[], [], ⟨none, none, []⟩⟩
      [(.reconcile ⟨none, some "web", []⟩, Faults.none), (.reconcile ⟨none, some "db", []⟩, Faults.none)]
    Distinct ([] : List SecurityGroupInstance) ∧
      (delete Faults.none { w with spec := ⟨none, some "web", []⟩ }).1 = .ok () ∧
      delete Faults.none (delete Faults.none { w with spec := ⟨none, some "web", []⟩ }).2 =
        (.ok (), (delete Faults.none { w with spec := ⟨none, some "web", []⟩ }).2) := by
  intro w
  have hok : (delete Faults.none { w with spec := ⟨none, some "web", []⟩ }).1 = .ok () := rfl
  exact ⟨by decide, hok, delete_by_name_repeat_after_runs _ _ (by decide) _ rfl _ hok _ rfl⟩

/-- Deleting a group `Reconcile` just set up, twice on the spec it leaves: the second
`Delete` is refused with `InvalidGroup.NotFound` for the ID `Reconcile` wrote into it. -/
theorem reconcile_delete_twice (fs₁ fs₂ : Faults) (w : World) (h₁ : (reconcile fs₁ w).1 = .ok ())
    (h₂ : (delete fs₂ (reconcile fs₁ w).2).1 = .ok ()) :
    ∃ id, (reconcile fs₁ w).2.spec.groupID = some id ∧
      (delete Faults.none (delete fs₂ (reconcile fs₁ w).2).2).1 = .error ("InvalidGroup.NotFound: " ++ id) := by
  obtain ⟨id, hid⟩ := reconcile_ok_groupID h₁
  exact ⟨id, hid, by rw [delete_again_of_groupID h₂ hid]⟩

theorem reconcile_delete_twice_web :
    (reconcile Faults.none ⟨[], [], ⟨none, some "web", []⟩⟩).1 = .ok () ∧
      (delete Faults.none (reconcile Faults.none ⟨[], [], ⟨none, some "web", []⟩⟩).2).1 = .ok () ∧
      ∃ id, (reconcile Faults.none ⟨[], [], ⟨none, some "web", []⟩⟩).2.spec.groupID = some id ∧
        (delete Faults.none (delete Faults.none
          (reconcile Faults.none ⟨[], [], ⟨none, some "web", []⟩⟩).2).2).1 =
          .error ("InvalidGroup.NotFound: " ++ id) :=
  ⟨rfl, rfl, reconcile_delete_twice Faults.none Faults.none _ rfl rfl⟩

end AlbIngress.Sg
