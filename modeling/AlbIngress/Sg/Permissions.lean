import Mathlib.Data.Finset.Basic

/-!
The permission comparison of package `sg`: `diffIPPermissions`, `diffIPRanges` and
`diffUserIDGroupPairs` are one loop, the set difference `setDifference` under an equality
test, and `ipPermissionEquals` compares protocol, ports, and the two sub-lists as sets of
keys. The facts proved here are the ones the revoke-then-grant reconciliation rests on:
the difference is empty exactly when every element has an equal partner, and
`ipPermissionEquals` is an equivalence.
-/

namespace AlbIngress.Sg

/-- `ec2.IpRange`; the controller reads only `CidrIp`. -/
structure IpRange where
  cidrIp : Option String
  deriving DecidableEq, Repr

/-- `ec2.UserIdGroupPair`; the controller reads only `GroupId`. -/
structure UserIdGroupPair where
  groupId : Option String
  deriving DecidableEq, Repr

/-- `ec2.IpPermission`, with the fields the controller reads; `*int64` ports are integers. -/
structure IpPermission where
  fromPort : Option Int
  ipProtocol : Option String
  ipRanges : List IpRange
  toPort : Option Int
  userIdGroupPairs : List UserIdGroupPair
  deriving DecidableEq, Repr

/-- The loop of the three `diff*` functions: the elements of `source` that are equal to no
element of `target`, in order. -/
def setDifference {α : Type} (eq : α → α → Bool) (source target : List α) : List α :=
  source.filter fun s => !target.any (eq s)

def ipRangeEquals (source target : IpRange) : Bool :=
  source.cidrIp.getD "" == target.cidrIp.getD ""

def diffIPRanges (source target : List IpRange) : List IpRange :=
  setDifference ipRangeEquals source target

/-- Only the group ID is compared; a pair's `UserId` plays no part. -/
def userIDGroupPairEquals (source target : UserIdGroupPair) : Bool :=
  source.groupId.getD "" == target.groupId.getD ""

def diffUserIDGroupPairs (source target : List UserIdGroupPair) : List UserIdGroupPair :=
  setDifference userIDGroupPairEquals source target

def ipPermissionEquals (source target : IpPermission) : Bool :=
  source.ipProtocol.getD "" == target.ipProtocol.getD "" &&
    source.fromPort.getD 0 == target.fromPort.getD 0 &&
    source.toPort.getD 0 == target.toPort.getD 0 &&
    (diffIPRanges source.ipRanges target.ipRanges).length == 0 &&
    (diffIPRanges target.ipRanges source.ipRanges).length == 0 &&
    (diffUserIDGroupPairs source.userIdGroupPairs target.userIdGroupPairs).length == 0 &&
    (diffUserIDGroupPairs target.userIdGroupPairs source.userIdGroupPairs).length == 0

def diffIPPermissions (source target : List IpPermission) : List IpPermission :=
  setDifference ipPermissionEquals source target

/-! ### The set difference -/

section SetDifference

variable {α : Type} (eq : α → α → Bool)

theorem mem_setDifference {source target : List α} {x : α} :
    x ∈ setDifference eq source target ↔ x ∈ source ∧ ∀ y ∈ target, eq x y = false := by
  simp [setDifference]

theorem setDifference_eq_nil {source target : List α} :
    setDifference eq source target = [] ↔ ∀ x ∈ source, ∃ y ∈ target, eq x y = true := by
  simp [setDifference, List.filter_eq_nil_iff]

/-- Under an equality of keys, the difference is empty exactly when the keys of `source`
are among those of `target`. -/
theorem setDifference_keys_eq_nil {β : Type} [DecidableEq β] (key : α → β)
    {source target : List α} :
    setDifference (fun a b => key a == key b) source target = [] ↔
      source.map key ⊆ target.map key := by
  simp only [setDifference_eq_nil, beq_iff_eq, List.subset_def, List.mem_map,
    forall_exists_index, and_imp, forall_apply_eq_imp_iff₂]
  exact forall₂_congr fun _ _ => exists_congr fun _ => and_congr_right' eq_comm

end SetDifference

/-! ### `ipPermissionEquals` compares keys as sets -/

theorem diffIPRanges_eq_nil {a b : List IpRange} :
    diffIPRanges a b = [] ↔ a.map (·.cidrIp.getD "") ⊆ b.map (·.cidrIp.getD "") :=
  setDifference_keys_eq_nil _

theorem diffUserIDGroupPairs_eq_nil {a b : List UserIdGroupPair} :
    diffUserIDGroupPairs a b = [] ↔ a.map (·.groupId.getD "") ⊆ b.map (·.groupId.getD "") :=
  setDifference_keys_eq_nil _

/-- Two lists hold the same keys. -/
def SameKeys {α β : Type} (key : α → β) (a b : List α) : Prop :=
  a.map key ⊆ b.map key ∧ b.map key ⊆ a.map key

theorem SameKeys.refl {α β : Type} (key : α → β) (a : List α) : SameKeys key a a :=
  ⟨List.Subset.refl _, List.Subset.refl _⟩

theorem SameKeys.symm {α β : Type} {key : α → β} {a b : List α} (h : SameKeys key a b) :
    SameKeys key b a :=
  ⟨h.2, h.1⟩

theorem SameKeys.trans {α β : Type} {key : α → β} {a b c : List α} (h₁ : SameKeys key a b)
    (h₂ : SameKeys key b c) : SameKeys key a c :=
  ⟨List.Subset.trans h₁.1 h₂.1, List.Subset.trans h₂.2 h₁.2⟩

/-- Lists with the same members hold the same keys. -/
theorem SameKeys.of_mem_iff {α β : Type} (key : α → β) {a b : List α} (h : ∀ x, x ∈ a ↔ x ∈ b) :
    SameKeys key a b :=
  ⟨List.map_subset key fun x hx => (h x).mp hx, List.map_subset key fun x hx => (h x).mpr hx⟩

theorem ipPermissionEquals_iff {p q : IpPermission} :
    ipPermissionEquals p q = true ↔
      p.ipProtocol.getD "" = q.ipProtocol.getD "" ∧ p.fromPort.getD 0 = q.fromPort.getD 0 ∧
        p.toPort.getD 0 = q.toPort.getD 0 ∧
        SameKeys (·.cidrIp.getD "") p.ipRanges q.ipRanges ∧
        SameKeys (·.groupId.getD "") p.userIdGroupPairs q.userIdGroupPairs := by
  simp only [ipPermissionEquals, Bool.and_eq_true, beq_iff_eq, List.length_eq_zero,
    diffIPRanges_eq_nil, diffUserIDGroupPairs_eq_nil, SameKeys, and_assoc]

theorem ipPermissionEquals_refl (p : IpPermission) : ipPermissionEquals p p = true :=
  ipPermissionEquals_iff.mpr ⟨rfl, rfl, rfl, .refl _ _, .refl _ _⟩

theorem ipPermissionEquals_symm {p q : IpPermission} (h : ipPermissionEquals p q = true) :
    ipPermissionEquals q p = true := by
  obtain ⟨h₁, h₂, h₃, h₄, h₅⟩ := ipPermissionEquals_iff.mp h
  exact ipPermissionEquals_iff.mpr ⟨h₁.symm, h₂.symm, h₃.symm, h₄.symm, h₅.symm⟩

theorem ipPermissionEquals_trans {p q r : IpPermission} (h : ipPermissionEquals p q = true)
    (h' : ipPermissionEquals q r = true) : ipPermissionEquals p r = true := by
  obtain ⟨h₁, h₂, h₃, h₄, h₅⟩ := ipPermissionEquals_iff.mp h
  obtain ⟨h₁', h₂', h₃', h₄', h₅'⟩ := ipPermissionEquals_iff.mp h'
  exact ipPermissionEquals_iff.mpr
    ⟨h₁.trans h₁', h₂.trans h₂', h₃.trans h₃', h₄.trans h₄', h₅.trans h₅'⟩

/-! ### Set equality on the compared fields -/

theorem sameKeys_iff_toFinset {α β : Type} [DecidableEq β] {key : α → β} {a b : List α} :
    SameKeys key a b ↔ (a.map key).toFinset = (b.map key).toFinset := by
  simp only [SameKeys, Finset.ext_iff, List.mem_toFinset, List.subset_def]
  exact ⟨fun h x => ⟨fun hx => h.1 hx, fun hx => h.2 hx⟩,
    fun h => ⟨fun hx => (h _).mp hx, fun hx => (h _).mpr hx⟩⟩

/-- Under an equality of keys, the difference keeps the elements whose key `target` lacks. -/
theorem setDifference_keys {α β : Type} [DecidableEq β] (key : α → β) (source target : List α) :
    setDifference (fun a b => key a == key b) source target =
      source.filter fun x => key x ∉ target.map key := by
  unfold setDifference
  congr 1
  funext x
  rw [List.any_eq, ← decide_not, decide_eq_decide]
  simp only [beq_iff_eq, List.mem_map]
  exact not_congr ⟨fun ⟨y, hy, h⟩ => ⟨y, hy, h.symm⟩, fun ⟨y, hy, h⟩ => ⟨y, hy, h.symm⟩⟩

/-- Two permissions with the same protocol and ports and the same members in their
sub-lists are equal. -/
theorem ipPermissionEquals_of_members {p p' : IpPermission} (hprotocol : p.ipProtocol = p'.ipProtocol)
    (hfrom : p.fromPort = p'.fromPort) (hto : p.toPort = p'.toPort)
    (hranges : ∀ r, r ∈ p.ipRanges ↔ r ∈ p'.ipRanges)
    (hpairs : ∀ u, u ∈ p.userIdGroupPairs ↔ u ∈ p'.userIdGroupPairs) :
    ipPermissionEquals p p' = true :=
  ipPermissionEquals_iff.mpr ⟨by rw [hprotocol], by rw [hfrom], by rw [hto],
    .of_mem_iff _ hranges, .of_mem_iff _ hpairs⟩

/-- `ipPermissionEquals` is equality of the protocol and the ports, nil read as `""` and `0`,
and of the sets of `CidrIp` and of `GroupId` of the two sub-lists; the differences keep the
elements whose key the other list lacks. So it is an equivalence, and it does not see the
order or the repetition of the sub-lists. -/
theorem ipPermissionEquals_set_equality :
    (∀ p q : IpPermission, ipPermissionEquals p q = true ↔
      p.ipProtocol.getD "" = q.ipProtocol.getD "" ∧ p.fromPort.getD 0 = q.fromPort.getD 0 ∧
        p.toPort.getD 0 = q.toPort.getD 0 ∧
        (p.ipRanges.map (·.cidrIp.getD "")).toFinset =
          (q.ipRanges.map (·.cidrIp.getD "")).toFinset ∧
        (p.userIdGroupPairs.map (·.groupId.getD "")).toFinset =
          (q.userIdGroupPairs.map (·.groupId.getD "")).toFinset) ∧
    (∀ a b : List IpRange,
      diffIPRanges a b = a.filter fun r => r.cidrIp.getD "" ∉ b.map (·.cidrIp.getD "")) ∧
    (∀ a b : List UserIdGroupPair,
      diffUserIDGroupPairs a b = a.filter fun u => u.groupId.getD "" ∉ b.map (·.groupId.getD "")) ∧
    Equivalence (fun p q : IpPermission => ipPermissionEquals p q = true) ∧
    ∀ p p' q : IpPermission, p.ipProtocol = p'.ipProtocol → p.fromPort = p'.fromPort →
      p.toPort = p'.toPort → (∀ r, r ∈ p.ipRanges ↔ r ∈ p'.ipRanges) →
      (∀ u, u ∈ p.userIdGroupPairs ↔ u ∈ p'.userIdGroupPairs) →
      ipPermissionEquals p q = ipPermissionEquals p' q := by
  refine ⟨fun p q => ?_, fun a b => setDifference_keys _ a b, fun a b => setDifference_keys _ a b,
    ⟨ipPermissionEquals_refl, ipPermissionEquals_symm, ipPermissionEquals_trans⟩,
    fun p p' q hprotocol hfrom hto hranges hpairs => ?_⟩
  · rw [ipPermissionEquals_iff, sameKeys_iff_toFinset, sameKeys_iff_toFinset]
  · have hpp' := ipPermissionEquals_of_members hprotocol hfrom hto hranges hpairs
    exact Bool.eq_iff_iff.mpr ⟨ipPermissionEquals_trans (ipPermissionEquals_symm hpp'),
      ipPermissionEquals_trans hpp'⟩

theorem ipPermissionEquals_set_equality_web :
    let p : IpPermission := ⟨some 80, some "tcp", [⟨some "10.0.0.0/8"⟩, ⟨some "0.0.0.0/0"⟩], some 80, []⟩
    let p' : IpPermission :=
      ⟨some 80, some "tcp", [⟨some "0.0.0.0/0"⟩, ⟨some "10.0.0.0/8"⟩, ⟨some "0.0.0.0/0"⟩], some 80, []⟩
    (∀ r, r ∈ p.ipRanges ↔ r ∈ p'.ipRanges) ∧ ipPermissionEquals p p = ipPermissionEquals p' p :=
  have hranges : ∀ r : IpRange, r ∈ [⟨some "10.0.0.0/8"⟩, ⟨some "0.0.0.0/0"⟩] ↔
      r ∈ [⟨some "0.0.0.0/0"⟩, ⟨some "10.0.0.0/8"⟩, ⟨some "0.0.0.0/0"⟩] := fun r => by
    simp only [List.mem_cons, List.mem_singleton, List.not_mem_nil, or_false]
    tauto
  ⟨hranges, ipPermissionEquals_set_equality.2.2.2.2 _ _ _ rfl rfl rfl hranges fun _ => .rfl⟩

/-! ### Revoke then grant -/

/-- Two permission lists are equal as sets modulo `ipPermissionEquals`. -/
def EquivModulo (a b : List IpPermission) : Prop :=
  (∀ p ∈ a, ∃ q ∈ b, ipPermissionEquals p q = true) ∧
    ∀ q ∈ b, ∃ p ∈ a, ipPermissionEquals q p = true

/-- Both differences are empty exactly when the lists are equal modulo `ipPermissionEquals`. -/
theorem diffIPPermissions_eq_nil_iff (current desired : List IpPermission) :
    diffIPPermissions current desired = [] ∧ diffIPPermissions desired current = [] ↔
      EquivModulo current desired := by
  simp only [diffIPPermissions, setDifference_eq_nil, EquivModulo]

/-- The permissions of `current` that are equal to none of `revoke`. -/
def withoutEquals (current revoke : List IpPermission) : List IpPermission :=
  current.filter fun p => !revoke.any (ipPermissionEquals p)

/-- Removing what is equal to the revoke set, then adding the grant set, leaves the desired
permissions modulo `ipPermissionEquals`. A kept permission survives because it is equal to
a desired one, and no revoked permission is, by transitivity. -/
theorem equivModulo_revoke_grant (current desired : List IpPermission) :
    EquivModulo (withoutEquals current (diffIPPermissions current desired) ++
      diffIPPermissions desired current) desired := by
  constructor
  · intro p hp
    rcases List.mem_append.mp hp with hp | hp
    · obtain ⟨hp, hkept⟩ := List.mem_filter.mp hp
      by_contra hnone
      push_neg at hnone
      have hrevoked : p ∈ diffIPPermissions current desired :=
        (mem_setDifference _).mpr ⟨hp, fun q hq => by simpa using hnone q hq⟩
      simp only [Bool.not_eq_true', List.any_eq_false] at hkept
      exact absurd (ipPermissionEquals_refl p) (by simpa using hkept p hrevoked)
    · exact ⟨p, ((mem_setDifference _).mp hp).1, ipPermissionEquals_refl p⟩
  · intro q hq
    by_cases hmatch : ∃ p ∈ current, ipPermissionEquals q p = true
    · obtain ⟨p, hp, hqp⟩ := hmatch
      refine ⟨p, List.mem_append_left _ (List.mem_filter.mpr ⟨hp, ?_⟩), hqp⟩
      simp only [Bool.not_eq_true', List.any_eq_false]
      intro r hr hpr
      have hrq := ipPermissionEquals_symm (ipPermissionEquals_trans hqp (by simpa using hpr))
      simp [((mem_setDifference _).mp hr).2 q hq] at hrq
    · push_neg at hmatch
      exact ⟨q, List.mem_append_right _ ((mem_setDifference _).mpr ⟨hq, fun p hp => by
        simpa using hmatch p hp⟩), ipPermissionEquals_refl q⟩

end AlbIngress.Sg
