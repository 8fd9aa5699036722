import AlbIngress.Sg.Permissions

/-!
`securityGroupController`: `Reconcile` finds the group a `SecurityGroup` spec names, by ID or
else by name, and either modifies its inbound permissions (revoke what is not desired, then
grant what is missing) or creates, authorizes and tags a new one; `Delete` deletes the
group the spec names. `Reconcile` writes the missing ID and name back into the caller's
spec; `Delete` writes nothing back.

The cloud is the list of security groups with the log of mutating calls. Each call of
`aws.CloudAPI` may be rejected, as a fault of the run says, and a rejected call takes no
effect; a call that takes effect and then reports an error (a lost reply) is not modelled.
Otherwise a call behaves as EC2 does: a call on an ID that names no group is rejected, a
group name is unique, and a new group gets an ID no group has.
-/

namespace AlbIngress.Sg

/-- An `ec2.Tag`. -/
structure Ec2Tag where
  key : String
  value : String
  deriving DecidableEq, Repr

/-- Modelled from the spec: `aws.ManagedByKey` and `aws.ManagedByValue` are not in the
sources; the spec tags the controller's resources `managed-by=<controller-id>`. -/
def managedByKey : String := "managed-by"

/-- Modelled from the spec, with `managedByKey`. -/
def managedByValue : String := "alb-ingress-controller"

/-- A security group in the cloud, as `ec2.SecurityGroup`. -/
structure SecurityGroupInstance where
  groupId : String
  groupName : String
  ipPermissions : List IpPermission
  tags : List Ec2Tag
  deriving DecidableEq, Repr

/-- `SecurityGroup`, identified by `GroupID` or `GroupName`. -/
structure SecurityGroup where
  groupID : Option String
  groupName : Option String
  inboundPermissions : List IpPermission
  deriving DecidableEq, Repr

/-- A call of `aws.CloudAPI` that changes the cloud. -/
inductive Call
  | createSecurityGroup (groupName : Option String)
  | authorizeSecurityGroupIngress (groupId : String) (permissions : List IpPermission)
  | createTags (groupId : String) (tags : List Ec2Tag)
  | revokeSecurityGroupIngress (groupId : String) (permissions : List IpPermission)
  | deleteSecurityGroupByID (groupId : String)
  deriving DecidableEq, Repr

/-- The group a call acts on. -/
def Call.target : Call → Option String
  | .createSecurityGroup _ => none
  | .authorizeSecurityGroupIngress id _ => some id
  | .createTags id _ => some id
  | .revokeSecurityGroupIngress id _ => some id
  | .deleteSecurityGroupByID id => some id

/-- What a controller call runs against: the security groups in the cloud, the mutating
calls made so far, and the caller's `*SecurityGroup`. -/
structure World where
  groups : List SecurityGroupInstance
  calls : List Call
  spec : SecurityGroup
  deriving DecidableEq, Repr

/-- Which calls of `aws.CloudAPI` fail in a run. -/
structure Faults where
  getByID : Bool
  getByName : Bool
  create : Bool
  authorize : Bool
  createTags : Bool
  revoke : Bool
  delete : Bool
  deriving DecidableEq, Repr

/-- A run in which every call succeeds. -/
def Faults.none : Faults := ⟨false, false, false, false, false, false, false⟩

/-! ### The cloud -/

/-- `RevokeSecurityGroupIngress` on a group's permissions: drop every permission equal to a
revoked one. -/
def revokeIngress (perms revoke : List IpPermission) : List IpPermission :=
  withoutEquals perms revoke

/-- `AuthorizeSecurityGroupIngress` on a group's permissions: add the granted ones. -/
def authorizeIngress (perms grant : List IpPermission) : List IpPermission :=
  perms ++ grant

/-- `CreateTags` on a group's tags: a new tag replaces the one with its key. -/
def createTagsOn (old new : List Ec2Tag) : List Ec2Tag :=
  old.filter (fun t => !new.any (·.key == t.key)) ++ new

def getSecurityGroupByID (gs : List SecurityGroupInstance) (id : String) :
    Option SecurityGroupInstance :=
  gs.find? (·.groupId == id)

def getSecurityGroupByName (gs : List SecurityGroupInstance) (name : String) :
    Option SecurityGroupInstance :=
  gs.find? (·.groupName == name)

/-- The ID EC2 gives a new group: longer than every ID in use, so no group has it. -/
def freshGroupId (gs : List SecurityGroupInstance) : String :=
  ⟨'s' :: 'g' :: '-' :: List.replicate (gs.foldr (fun g n => max g.groupId.length n) 0) '0'⟩

/-- A mutating call on the group `id`: logged when made; it fails on a fault, or when no
group has the ID, and otherwise applies `f` to that group. -/
def mutateGroup (w : World) (call : Call) (fault : Bool) (id : String)
    (f : SecurityGroupInstance → SecurityGroupInstance) : Except String Unit × World :=
  let w := { w with calls := w.calls ++ [call] }
  if fault then (.error "RequestError", w)
  else if w.groups.any (·.groupId == id) then
    (.ok (), { w with groups := w.groups.map fun g => if g.groupId = id then f g else g })
  else (.error ("InvalidGroup.NotFound: " ++ id), w)

def authorizeSecurityGroupIngress (fs : Faults) (w : World) (id : String)
    (perms : List IpPermission) : Except String Unit × World :=
  mutateGroup w (.authorizeSecurityGroupIngress id perms) fs.authorize id fun g =>
    { g with ipPermissions := authorizeIngress g.ipPermissions perms }

def revokeSecurityGroupIngress (fs : Faults) (w : World) (id : String)
    (perms : List IpPermission) : Except String Unit × World :=
  mutateGroup w (.revokeSecurityGroupIngress id perms) fs.revoke id fun g =>
    { g with ipPermissions := revokeIngress g.ipPermissions perms }

def createTags (fs : Faults) (w : World) (id : String) (tags : List Ec2Tag) :
    Except String Unit × World :=
  mutateGroup w (.createTags id tags) fs.createTags id fun g =>
    { g with tags := createTagsOn g.tags tags }

def deleteSecurityGroupByID (fs : Faults) (w : World) (id : String) :
    Except String Unit × World :=
  let w := { w with calls := w.calls ++ [.deleteSecurityGroupByID id] }
  if fs.delete then (.error "RequestError", w)
  else if w.groups.any (·.groupId == id) then
    (.ok (), { w with groups := w.groups.filter (·.groupId ≠ id) })
  else (.error ("InvalidGroup.NotFound: " ++ id), w)

/-- `CreateSecurityGroup`: rejected without a name or with a name in use; the new group has
no permissions and no tags. -/
def createSecurityGroup (fs : Faults) (w : World) (name : Option String) :
    Except String String × World :=
  let w := { w with calls := w.calls ++ [.createSecurityGroup name] }
  if fs.create then (.error "RequestError", w)
  else match name with
    | none => (.error "MissingParameter: GroupName", w)
    | some n =>
      if w.groups.any (·.groupName == n) then (.error ("InvalidGroup.Duplicate: " ++ n), w)
      else (.ok (freshGroupId w.groups),
        { w with groups := w.groups ++ [⟨freshGroupId w.groups, n, [], []⟩] })

/-! ### The controller -/

def findExistingSGInstance (fs : Faults) (w : World) :
    Except String (Option SecurityGroupInstance) :=
  match w.spec.groupID, w.spec.groupName with
  | some id, _ =>
    if fs.getByID then .error "RequestError"
    else match getSecurityGroupByID w.groups id with
      | none => .error ("securityGroup " ++ id ++ " doesn't exist")
      | some inst => .ok (some inst)
  | none, some name =>
    if fs.getByName then .error "RequestError" else .ok (getSecurityGroupByName w.groups name)
  | none, none => .error "Either GroupID or GroupName must be specified"

def reconcileByNewSGInstance (fs : Faults) (w : World) : Except String Unit × World :=
  match createSecurityGroup fs w w.spec.groupName with
  | (.error e, w) => (.error e, w)
  | (.ok id, w) =>
    let w := { w with spec := { w.spec with groupID := some id } }
    match authorizeSecurityGroupIngress fs w id w.spec.inboundPermissions with
    | (.error e, w) => (.error e, w)
    | (.ok (), w) =>
      createTags fs w id [⟨"Name", w.spec.groupName.getD ""⟩, ⟨managedByKey, managedByValue⟩]

/-- Modify the group `inst` found for the spec: revoke the permissions it has and the spec
does not want, then grant those the spec wants and it lacked, both computed from `inst`. -/
def reconcileByModifySGInstance (fs : Faults) (w : World) (inst : SecurityGroupInstance) :
    Except String Unit × World :=
  let w := { w with spec := { w.spec with
    groupID := some (w.spec.groupID.getD inst.groupId)
    groupName := some (w.spec.groupName.getD inst.groupName) } }
  let id := w.spec.groupID.getD inst.groupId
  let revoke := diffIPPermissions inst.ipPermissions w.spec.inboundPermissions
  match (if revoke ≠ [] then revokeSecurityGroupIngress fs w id revoke else (.ok (), w)) with
  | (.error e, w) => (.error ("failed to revoke inbound permissions due to " ++ e), w)
  | (.ok (), w) =>
    let grant := diffIPPermissions w.spec.inboundPermissions inst.ipPermissions
    match (if grant ≠ [] then authorizeSecurityGroupIngress fs w id grant else (.ok (), w)) with
    | (.error e, w) => (.error ("failed to grant inbound permissions due to " ++ e), w)
    | (.ok (), w) => (.ok (), w)

/-- `securityGroupController.Reconcile`. -/
def reconcile (fs : Faults) (w : World) : Except String Unit × World :=
  match findExistingSGInstance fs w with
  | .error e => (.error e, w)
  | .ok (some inst) => reconcileByModifySGInstance fs w inst
  | .ok none => reconcileByNewSGInstance fs w

/-- `securityGroupController.Delete`. -/
def delete (fs : Faults) (w : World) : Except String Unit × World :=
  match w.spec.groupID with
  | some id => deleteSecurityGroupByID fs w id
  | none =>
    match findExistingSGInstance fs w with
    | .error e => (.error e, w)
    | .ok (some inst) => deleteSecurityGroupByID fs w inst.groupId
    | .ok none => (.ok (), w)

/-! ### Frame lemmas of the cloud calls -/

@[simp] theorem mutateGroup_spec (w : World) (call : Call) (fault : Bool) (id : String)
    (f : SecurityGroupInstance → SecurityGroupInstance) :
    (mutateGroup w call fault id f).2.spec = w.spec := by
  unfold mutateGroup
  dsimp only
  split_ifs <;> rfl

/-- A faulted call changes no group. -/
@[simp] theorem mutateGroup_fault (w : World) (call : Call) (id : String)
    (f : SecurityGroupInstance → SecurityGroupInstance) :
    mutateGroup w call true id f = (.error "RequestError", { w with calls := w.calls ++ [call] }) :=
  rfl

/-- A call without a fault on a group that exists succeeds and updates that group. -/
theorem mutateGroup_of_any {w : World} {id : String} (h : w.groups.any (·.groupId == id) = true)
    (call : Call) (f : SecurityGroupInstance → SecurityGroupInstance) :
    mutateGroup w call false id f = (.ok (), { w with
      calls := w.calls ++ [call]
      groups := w.groups.map (fun g => if g.groupId = id then f g else g) }) := by
  simp [mutateGroup, h]

/-- A call of `mutateGroup` made only when `c` holds, that returns `ok`: it keeps the spec
and applies `f` to the groups with the ID `id`. The guard skips only calls that would leave
those groups as they are. -/
theorem guarded_mutateGroup {w w₁ : World} {c : Prop} [Decidable c] {call : Call}
    {fault : Bool} {id : String} {f : SecurityGroupInstance → SecurityGroupInstance}
    (h : (if c then mutateGroup w call fault id f else (.ok (), w)) = (.ok (), w₁))
    (hskip : ¬c → ∀ g ∈ w.groups, g.groupId = id → f g = g) :
    w₁.spec = w.spec ∧ w₁.groups = w.groups.map fun g => if g.groupId = id then f g else g := by
  split_ifs at h with hc
  · unfold mutateGroup at h
    dsimp only at h
    split_ifs at h <;> cases h
    exact ⟨rfl, rfl⟩
  · cases h
    refine ⟨rfl, ((List.map_congr_left fun g hg => ?_).trans (List.map_id _)).symm⟩
    split_ifs with he
    exacts [hskip hc g hg he, rfl]

@[simp] theorem createSecurityGroup_spec (fs : Faults) (w : World) (name : Option String) :
    (createSecurityGroup fs w name).2.spec = w.spec := by
  unfold createSecurityGroup
  dsimp only
  split_ifs
  · rfl
  · split
    · rfl
    · split_ifs <;> rfl

/-- `w'` extends the call log of `w` with calls that act on no group other than `t`. -/
def ActsOn (t : Option String) (w w' : World) : Prop :=
  ∃ new, w'.calls = w.calls ++ new ∧ ∀ c ∈ new, ∀ id ∈ c.target, some id = t

theorem ActsOn.refl (t : Option String) (w : World) : ActsOn t w w :=
  ⟨[], by simp, by simp⟩

theorem ActsOn.trans {t : Option String} {w₁ w₂ w₃ : World} (h₁ : ActsOn t w₁ w₂)
    (h₂ : ActsOn t w₂ w₃) : ActsOn t w₁ w₃ := by
  obtain ⟨n₁, e₁, h₁⟩ := h₁
  obtain ⟨n₂, e₂, h₂⟩ := h₂
  refine ⟨n₁ ++ n₂, by simp [e₂, e₁], fun c hc => ?_⟩
  rcases List.mem_append.mp hc with hc | hc
  exacts [h₁ c hc, h₂ c hc]

/-- The group a spec identifies: its `GroupID`; otherwise the first group named `GroupName`,
or, when there is none, the group `CreateSecurityGroup` creates. -/
def identifiedGroup (w : World) : Option String :=
  match w.spec.groupID, w.spec.groupName with
  | some id, _ => some id
  | none, some n =>
    some (((getSecurityGroupByName w.groups n).map (·.groupId)).getD (freshGroupId w.groups))
  | none, none => none

theorem identifiedGroup_of_found {fs : Faults} {w : World} {inst : SecurityGroupInstance}
    (h : findExistingSGInstance fs w = .ok (some inst)) :
    identifiedGroup w = some (w.spec.groupID.getD inst.groupId) := by
  unfold findExistingSGInstance at h
  unfold identifiedGroup
  split at h
  · next id _ hid =>
    simp only [hid, Option.getD_some]
  · next n hid hn =>
    split_ifs at h
    simp_all
  · cases h

theorem identifiedGroup_of_not_found {fs : Faults} {w : World}
    (h : findExistingSGInstance fs w = .ok none) :
    identifiedGroup w = some (freshGroupId w.groups) := by
  unfold findExistingSGInstance at h
  unfold identifiedGroup
  split at h
  · split_ifs at h
    split at h <;> cases h
  · split_ifs at h
    simp_all
  · cases h

/-- The permissions a group holds after a modify run from `current` in which both the
revoke and the grant call succeed. -/
def revokeThenGrant (current desired : List IpPermission) : List IpPermission :=
  authorizeIngress (revokeIngress current (diffIPPermissions current desired))
    (diffIPPermissions desired current)

/-- With nothing to revoke and nothing to grant, the modify path makes no call and changes
no group. -/
theorem reconcileByModifySGInstance_of_equiv (fs : Faults) (w : World)
    (inst : SecurityGroupInstance) (h : EquivModulo inst.ipPermissions w.spec.inboundPermissions) :
    (reconcileByModifySGInstance fs w inst).1 = .ok () ∧
      (reconcileByModifySGInstance fs w inst).2.calls = w.calls ∧
      (reconcileByModifySGInstance fs w inst).2.groups = w.groups := by
  obtain ⟨h₁, h₂⟩ := (diffIPPermissions_eq_nil_iff _ _).mpr h
  simp [reconcileByModifySGInstance, h₁, h₂]

/-- A modify run that returns `ok` leaves the found group, and every group with its ID, at
the revoke-then-grant of the found group's permissions. -/
theorem reconcileByModifySGInstance_ok_mem {fs : Faults} {w : World}
    {inst : SecurityGroupInstance} (hinst : inst ∈ w.groups)
    (hid : w.spec.groupID.getD inst.groupId = inst.groupId)
    (hok : (reconcileByModifySGInstance fs w inst).1 = .ok ()) :
    { inst with ipPermissions := revokeThenGrant inst.ipPermissions w.spec.inboundPermissions } ∈
      (reconcileByModifySGInstance fs w inst).2.groups := by
  revert hok
  unfold reconcileByModifySGInstance
  dsimp only
  simp only [Option.getD_some, hid]
  split
  · nofun
  · next w₁ h₁ =>
    obtain ⟨hs₁, hg₁⟩ := guarded_mutateGroup h₁ fun hc _ _ _ => by
      push_neg at hc
      simp [hc, revokeIngress, withoutEquals]
    split
    · nofun
    · next w₂ h₂ =>
      obtain ⟨-, hg₂⟩ := guarded_mutateGroup h₂ fun hc _ _ _ => by
        push_neg at hc
        simp [hc, authorizeIngress]
      intro _
      rw [hg₂, hg₁, List.map_map]
      exact List.mem_map.mpr ⟨inst, hinst, by simp [hs₁, revokeThenGrant]⟩

/-- The revoke and grant sets are both empty exactly when the lists agree modulo
`ipPermissionEquals`; a modify run that succeeds leaves the found group at the
revoke-then-grant of its permissions, which agrees with the desired list; and a second
modify run against that group makes no call and changes nothing. -/
theorem permission_reconcile_converges (current desired : List IpPermission) (fs : Faults)
    (w : World) (inst : SecurityGroupInstance) :
    (diffIPPermissions current desired = [] ∧ diffIPPermissions desired current = [] ↔
        EquivModulo current desired) ∧
      (∀ w₀ : World, ∀ inst₀ ∈ w₀.groups, inst₀.ipPermissions = current →
        w₀.spec.inboundPermissions = desired → w₀.spec.groupID.getD inst₀.groupId = inst₀.groupId →
        (reconcileByModifySGInstance fs w₀ inst₀).1 = .ok () →
        { inst₀ with ipPermissions := revokeThenGrant current desired } ∈
          (reconcileByModifySGInstance fs w₀ inst₀).2.groups) ∧
      EquivModulo (revokeThenGrant current desired) desired ∧
      (reconcileByModifySGInstance fs { w with spec := { w.spec with inboundPermissions := desired } }
          { inst with ipPermissions := revokeThenGrant current desired }).1 = .ok () ∧
      (reconcileByModifySGInstance fs { w with spec := { w.spec with inboundPermissions := desired } }
          { inst with ipPermissions := revokeThenGrant current desired }).2.calls = w.calls ∧
      (reconcileByModifySGInstance fs { w with spec := { w.spec with inboundPermissions := desired } }
          { inst with ipPermissions := revokeThenGrant current desired }).2.groups = w.groups := by
  refine ⟨diffIPPermissions_eq_nil_iff current desired, fun w₀ inst₀ hmem hcur hdes hid hok => ?_,
    equivModulo_revoke_grant current desired,
    reconcileByModifySGInstance_of_equiv _ _ _ (equivModulo_revoke_grant current desired)⟩
  subst hcur hdes
  exact reconcileByModifySGInstance_ok_mem hmem hid hok

/-! ### Retrying a creation that failed

A creation that fails at the authorize or the tag step leaves a group that has the spec's
name and no tags. From then on every `Reconcile` of the spec finds that group, by the ID
written back into the spec or by its name, and takes the modify path, which never tags. -/

theorem length_le_freshGroupId {gs : List SecurityGroupInstance} {g : SecurityGroupInstance}
    (hg : g ∈ gs) : g.groupId.length < (freshGroupId gs).length := by
  have hmax : ∀ gs : List SecurityGroupInstance, ∀ g ∈ gs,
      g.groupId.length ≤ gs.foldr (fun g n => max g.groupId.length n) 0 := by
    intro gs
    induction gs with
    | nil => simp
    | cons g' gs ih =>
      intro g hg
      rcases List.mem_cons.mp hg with rfl | hg
      · exact le_max_left _ _
      · exact (ih g hg).trans (le_max_right _ _)
  have hlen : (freshGroupId gs).length =
      (List.replicate (gs.foldr (fun g n => max g.groupId.length n) 0) '0').length + 3 := rfl
  rw [hlen, List.length_replicate]
  have := hmax gs g hg
  omega

theorem freshGroupId_fresh {gs : List SecurityGroupInstance} {g : SecurityGroupInstance}
    (hg : g ∈ gs) : g.groupId ≠ freshGroupId gs :=
  fun h => (length_le_freshGroupId hg).ne (congrArg String.length h)

/-- `g` is the only group named `n`, the only group with the ID `id`, and it has no tags. -/
def AdoptedGroup (n id : String) (gs : List SecurityGroupInstance) (g : SecurityGroupInstance) :
    Prop :=
  gs.filter (·.groupName == n) = [g] ∧ gs.filter (·.groupId == id) = [g] ∧ g.tags = []

section AdoptedGroup

variable {n id : String} {gs : List SecurityGroupInstance} {g : SecurityGroupInstance}

theorem AdoptedGroup.groupId_eq (h : AdoptedGroup n id gs g) : g.groupId = id := by
  have hg : g ∈ gs.filter (·.groupId == id) := h.2.1 ▸ List.mem_singleton_self g
  exact beq_iff_eq.mp (List.mem_filter.mp hg).2

theorem AdoptedGroup.getByID (h : AdoptedGroup n id gs g) : getSecurityGroupByID gs id = some g := by
  rw [getSecurityGroupByID, ← List.filter_head?, h.2.1]
  rfl

theorem AdoptedGroup.getByName (h : AdoptedGroup n id gs g) :
    getSecurityGroupByName gs n = some g := by
  rw [getSecurityGroupByName, ← List.filter_head?, h.1]
  rfl

/-- Updating the group with ID `id` by a map that keeps names, IDs and tags keeps it adopted. -/
theorem AdoptedGroup.any (h : AdoptedGroup n id gs g) : gs.any (·.groupId == id) = true := by
  have hg : g ∈ gs.filter (·.groupId == id) := h.2.1 ▸ List.mem_singleton_self g
  exact List.any_eq_true.mpr ⟨g, List.mem_filter.mp hg⟩

theorem AdoptedGroup.update (h : AdoptedGroup n id gs g)
    {f : SecurityGroupInstance → SecurityGroupInstance}
    (hname : ∀ x, (f x).groupName = x.groupName) (hid : ∀ x, (f x).groupId = x.groupId)
    (htags : ∀ x, (f x).tags = x.tags) :
    AdoptedGroup n id (gs.map fun x => if x.groupId = id then f x else x) (f g) := by
  have hkeep : ∀ p : SecurityGroupInstance → Bool, (∀ x, p (f x) = p x) →
      (gs.map fun x => if x.groupId = id then f x else x).filter p =
        (gs.filter p).map fun x => if x.groupId = id then f x else x := by
    intro p hp
    rw [List.filter_map]
    congr 2
    funext x
    simp only [Function.comp_apply]
    split_ifs <;> simp [hp]
  refine ⟨?_, ?_, by rw [htags]; exact h.2.2⟩
  · rw [hkeep _ (by simp [hname]), h.1]
    simp [h.groupId_eq]
  · rw [hkeep _ (by simp [hid]), h.2.1]
    simp [h.groupId_eq]

/-- A call of `mutateGroup` on the adopted group, made only when `c` holds, keeps the spec
and a group adopted; when it returns `ok` that group is `f g`. The guard skips only calls
that would leave `g` as it is. -/
theorem adoptedGroup_guarded {w w₁ : World} {c : Prop} [Decidable c] {call : Call}
    {fault : Bool} {f : SecurityGroupInstance → SecurityGroupInstance} {r : Except String Unit}
    (h : (if c then mutateGroup w call fault id f else (.ok (), w)) = (r, w₁))
    (hA : AdoptedGroup n id w.groups g)
    (hname : ∀ x, (f x).groupName = x.groupName) (hid : ∀ x, (f x).groupId = x.groupId)
    (htags : ∀ x, (f x).tags = x.tags) (hskip : ¬c → f g = g) :
    w₁.spec = w.spec ∧ ∃ g', AdoptedGroup n id w₁.groups g' ∧ (r = .ok () → g' = f g) := by
  split_ifs at h with hc
  · cases fault
    · rw [mutateGroup_of_any hA.any] at h
      obtain ⟨rfl, rfl⟩ := Prod.mk.inj h
      exact ⟨rfl, f g, hA.update hname hid htags, fun _ => rfl⟩
    · rw [mutateGroup_fault] at h
      obtain ⟨rfl, rfl⟩ := Prod.mk.inj h
      exact ⟨rfl, g, hA, nofun⟩
  · obtain ⟨rfl, rfl⟩ := Prod.mk.inj h
    exact ⟨rfl, g, hA, fun _ => (hskip hc).symm⟩

/-- A group `CreateSecurityGroup` makes under a name no group has is adopted. -/
theorem adoptedGroup_create (hnew : ∀ x ∈ gs, x.groupName ≠ n) :
    AdoptedGroup n (freshGroupId gs) (gs ++ [⟨freshGroupId gs, n, [], []⟩])
      ⟨freshGroupId gs, n, [], []⟩ := by
  refine ⟨?_, ?_, rfl⟩ <;> rw [List.filter_append, List.filter_eq_nil_iff.mpr] <;>
    simp_all [freshGroupId_fresh]

end AdoptedGroup

/-- What a creation that failed after `CreateSecurityGroup` leaves for the spec
`⟨none, some n, desired⟩`, for as long as only `Reconcile` runs on it: an adopted group,
and a spec value that names `n`, wants `desired`, and carries no ID or `id`. -/
structure Adopted (n id : String) (desired : List IpPermission) (w : World) : Prop where
  group : ∃ g, AdoptedGroup n id w.groups g
  name : w.spec.groupName = some n
  perms : w.spec.inboundPermissions = desired
  groupID : w.spec.groupID = none ∨ w.spec.groupID = some id

section Adopted

variable {n id : String} {desired : List IpPermission} {w : World} {g : SecurityGroupInstance}

/-- A world whose spec is that of an adopted one, with an adopted group, is adopted. -/
theorem Adopted.of_spec (h : Adopted n id desired w) {w' : World} (hs : w'.spec = w.spec)
    (hg : AdoptedGroup n id w'.groups g) : Adopted n id desired w' :=
  ⟨⟨g, hg⟩, hs ▸ h.name, hs ▸ h.perms, hs ▸ h.groupID⟩

/-- The lookup finds the adopted group, or fails. -/
theorem Adopted.found (h : Adopted n id desired w) (hg : AdoptedGroup n id w.groups g)
    (fs : Faults) :
    (∃ e, findExistingSGInstance fs w = .error e) ∨ findExistingSGInstance fs w = .ok (some g) := by
  unfold findExistingSGInstance
  rcases h.groupID with hid | hid <;> simp only [hid, h.name]
  · split_ifs
    · exact .inl ⟨_, rfl⟩
    · exact .inr (by rw [hg.getByName])
  · split_ifs
    · exact .inl ⟨_, rfl⟩
    · exact .inr (by rw [hg.getByID])

/-- The modify path on the adopted group keeps it adopted, and when it succeeds the group
holds the revoke-then-grant of its permissions. -/
theorem Adopted.modify (h : Adopted n id desired w) (hg : AdoptedGroup n id w.groups g)
    (fs : Faults) :
    Adopted n id desired (reconcileByModifySGInstance fs w g).2 ∧
      ((reconcileByModifySGInstance fs w g).1 = .ok () →
        ∃ g', AdoptedGroup n id (reconcileByModifySGInstance fs w g).2.groups g' ∧
          g'.ipPermissions = revokeThenGrant g.ipPermissions desired) := by
  have hid : w.spec.groupID.getD g.groupId = id := by
    rcases h.groupID with e | e <;> simp [e, hg.groupId_eq]
  have hpinned : Adopted n id desired { w with spec := { w.spec with
      groupID := some id
      groupName := some (w.spec.groupName.getD g.groupName) } } :=
    ⟨⟨g, hg⟩, by simp [h.name], h.perms, .inr rfl⟩
  unfold reconcileByModifySGInstance
  dsimp only
  simp only [Option.getD_some, hid]
  split
  next e w₁ h₁ =>
    obtain ⟨hs₁, g₁, hg₁, -⟩ := adoptedGroup_guarded h₁ hg (fun _ => rfl) (fun _ => rfl)
      (fun _ => rfl) (by intro hc; push_neg at hc; simp [hc, revokeIngress, withoutEquals])
    exact ⟨hpinned.of_spec hs₁ hg₁, nofun⟩
  next w₁ h₁ =>
    obtain ⟨hs₁, g₁, hg₁, hok₁⟩ := adoptedGroup_guarded h₁ hg (fun _ => rfl) (fun _ => rfl)
      (fun _ => rfl) (by intro hc; push_neg at hc; simp [hc, revokeIngress, withoutEquals])
    split
    next e w₂ h₂ =>
      obtain ⟨hs₂, g₂, hg₂, -⟩ := adoptedGroup_guarded h₂ hg₁ (fun _ => rfl) (fun _ => rfl)
        (fun _ => rfl) (by intro hc; push_neg at hc; simp [hc, authorizeIngress])
      exact ⟨hpinned.of_spec (hs₂.trans hs₁) hg₂, nofun⟩
    next w₂ h₂ =>
      obtain ⟨hs₂, g₂, hg₂, hok₂⟩ := adoptedGroup_guarded h₂ hg₁ (fun _ => rfl) (fun _ => rfl)
        (fun _ => rfl) (by intro hc; push_neg at hc; simp [hc, authorizeIngress])
      refine ⟨hpinned.of_spec (hs₂.trans hs₁) hg₂, fun _ => ⟨g₂, hg₂, ?_⟩⟩
      rw [hok₂ rfl, hok₁ rfl]
      simp [revokeThenGrant, hs₁, h.perms]

/-- `Reconcile` keeps the state adopted, and when it succeeds the adopted group holds the
desired permissions modulo `ipPermissionEquals`. -/
theorem Adopted.reconcile_step (h : Adopted n id desired w) (fs : Faults) :
    Adopted n id desired (reconcile fs w).2 ∧
      ((reconcile fs w).1 = .ok () →
        ∃ g, AdoptedGroup n id (reconcile fs w).2.groups g ∧ EquivModulo g.ipPermissions desired) := by
  obtain ⟨g, hg⟩ := h.group
  unfold reconcile
  rcases h.found hg fs with ⟨e, he⟩ | he <;> simp only [he]
  · exact ⟨h, nofun⟩
  · obtain ⟨hA, hok⟩ := h.modify hg fs
    refine ⟨hA, fun hr => ?_⟩
    obtain ⟨g', hg', hp⟩ := hok hr
    exact ⟨g', hg', hp ▸ equivModulo_revoke_grant _ _⟩

/-- A first `Reconcile` of `⟨none, some n, desired⟩`, on groups none of which is named `n`,
whose authorize or tag call fails: it creates the group, fails, and leaves it adopted. -/
theorem reconcile_failed_create (desired : List IpPermission) {gs : List SecurityGroupInstance}
    {calls : List Call} {fs : Faults} (hnew : ∀ x ∈ gs, x.groupName ≠ n)
    (hget : fs.getByName = false) (hcreate : fs.create = false)
    (hfail : fs.authorize = true ∨ fs.createTags = true) :
    (reconcile fs ⟨gs, calls, ⟨none, some n, desired⟩⟩).1 = .error "RequestError" ∧
      Adopted n (freshGroupId gs) desired (reconcile fs ⟨gs, calls, ⟨none, some n, desired⟩⟩).2 := by
  have hA := adoptedGroup_create hnew
  have hfind : findExistingSGInstance fs ⟨gs, calls, ⟨none, some n, desired⟩⟩ = .ok none := by
    simpa [findExistingSGInstance, hget, getSecurityGroupByName] using hnew
  have hcreated : createSecurityGroup fs ⟨gs, calls, ⟨none, some n, desired⟩⟩ (some n) =
      (.ok (freshGroupId gs), ⟨gs ++ [⟨freshGroupId gs, n, [], []⟩],
        calls ++ [.createSecurityGroup (some n)], ⟨none, some n, desired⟩⟩) := by
    simpa [createSecurityGroup, hcreate] using hnew
  simp only [reconcile, hfind, reconcileByNewSGInstance, hcreated, authorizeSecurityGroupIngress]
  cases hauth : fs.authorize
  · have hcreateTags : fs.createTags = true := by simpa [hauth] using hfail
    rw [mutateGroup_of_any hA.any]
    simp only [createTags, hcreateTags, mutateGroup_fault]
    exact ⟨trivial, ⟨_, hA.update (fun _ => rfl) (fun _ => rfl) (fun _ => rfl)⟩, rfl, rfl, .inr rfl⟩
  · simp only [mutateGroup_fault]
    exact ⟨trivial, ⟨_, hA⟩, rfl, rfl, .inr rfl⟩

end Adopted

/-- A later `Reconcile` of the spec `g₀`: on the spec value the earlier runs have left, or,
when the run's flag is set, on a fresh copy of `g₀`. -/
def retry (g₀ : SecurityGroup) (w : World) (run : Faults × Bool) : Except String Unit × World :=
  reconcile run.1 (if run.2 then { w with spec := g₀ } else w)

/-- The world after a sequence of retries. -/
def retries (g₀ : SecurityGroup) (w : World) (runs : List (Faults × Bool)) : World :=
  runs.foldl (fun w run => (retry g₀ w run).2) w

section Adopted

variable {n id : String} {desired : List IpPermission} {w : World}

/-- A fresh copy of the spec value is adopted on the same groups. -/
theorem Adopted.fresh_copy (h : Adopted n id desired w) :
    Adopted n id desired { w with spec := ⟨none, some n, desired⟩ } :=
  ⟨h.group, rfl, rfl, .inl rfl⟩

theorem Adopted.retry_step (h : Adopted n id desired w) (run : Faults × Bool) :
    Adopted n id desired (retry ⟨none, some n, desired⟩ w run).2 ∧
      ((retry ⟨none, some n, desired⟩ w run).1 = .ok () →
        ∃ g, AdoptedGroup n id (retry ⟨none, some n, desired⟩ w run).2.groups g ∧
          EquivModulo g.ipPermissions desired) := by
  unfold retry
  split_ifs
  · exact h.fresh_copy.reconcile_step run.1
  · exact h.reconcile_step run.1

theorem Adopted.retries_preserve (h : Adopted n id desired w) (runs : List (Faults × Bool)) :
    Adopted n id desired (retries ⟨none, some n, desired⟩ w runs) := by
  induction runs generalizing w with
  | nil => exact h
  | cons run runs ih => exact ih (h.retry_step run).1

end Adopted

/-- A creation of `⟨none, some n, desired⟩` whose authorize or tag call fails makes the
`Reconcile` fail. If, after any retries, one on the value left or on a fresh copy succeeds,
the cloud holds exactly one group named `n`, with the desired permissions modulo
`ipPermissionEquals`, and with no tags: every retry takes the modify path. -/
theorem reconcile_after_failed_create (n : String) (desired : List IpPermission)
    (gs : List SecurityGroupInstance) (calls : List Call) (f₁ : Faults)
    (hnew : ∀ x ∈ gs, x.groupName ≠ n) (hget : f₁.getByName = false)
    (hcreate : f₁.create = false) (hfail : f₁.authorize = true ∨ f₁.createTags = true)
    (runs : List (Faults × Bool)) (last : Faults × Bool) :
    let g₀ : SecurityGroup := ⟨none, some n, desired⟩
    let first := reconcile f₁ ⟨gs, calls, g₀⟩
    let final := retry g₀ (retries g₀ first.2 runs) last
    first.1 = .error "RequestError" ∧
      (final.1 = .ok () → ∃ g, final.2.groups.filter (·.groupName == n) = [g] ∧
        EquivModulo g.ipPermissions desired ∧ g.tags = []) := by
  intro g₀ first final
  obtain ⟨hfirst, hA⟩ := reconcile_failed_create desired hnew hget hcreate hfail
  refine ⟨hfirst, fun hok => ?_⟩
  obtain ⟨g, hg, hequiv⟩ := ((hA.retries_preserve runs).retry_step last).2 hok
  exact ⟨g, hg.1, hequiv, hg.2.2⟩

theorem reconcile_after_failed_create_web :
    let g₀ : SecurityGroup :=
      ⟨none, some "web", [⟨some 80, some "tcp", [⟨some "0.0.0.0/0"⟩], some 80, []⟩]⟩
    let first := reconcile { Faults.none with authorize := true } ⟨[], [], g₀⟩
    let final := retry g₀ (retries g₀ first.2 []) (Faults.none, false)
    first.1 = .error "RequestError" ∧ final.1 = .ok () ∧
      ∃ g, final.2.groups.filter (·.groupName == "web") = [g] ∧ g.tags = [] := by
  intro g₀ first final
  have h := reconcile_after_failed_create "web" g₀.inboundPermissions [] []
    { Faults.none with authorize := true } (by simp) rfl rfl (.inl rfl) [] (Faults.none, false)
  have hok : final.1 = .ok () := rfl
  obtain ⟨g, hg, -, htags⟩ := h.2 hok
  exact ⟨h.1, hok, g, hg, htags⟩

end AlbIngress.Sg
