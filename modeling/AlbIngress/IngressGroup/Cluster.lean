import AlbIngress.Controller.Resolvers

/-!
The cluster side of `GroupReconciler`: ingress objects with their group and class
annotations, their deletion mark and their finalizers; the user's edits; and the calls of
the group loader and of the finalizer manager. A finalizer is named by the group it
belongs to. The API server removes an object whose deletion has been requested as soon as
it carries no finalizer.

`GroupLoader` and `FinalizerManager` are interfaces implemented outside these sources.
The loader follows its contract: the members of a group are the live objects whose group
annotation names it and whose class annotation is the loader's class `"alb"`; its inactive
members are the other objects that still carry its finalizer. The finalizer manager
patches the listed objects one at a time, and any patch can fail.
-/

namespace AlbIngress.IngressGroup

open AlbIngress.Controller

/-- An ingress's `namespace/name`. -/
abbrev Key := String

/-- A `networking.Ingress`, with what the reconciler reads and writes of it. -/
structure Ingress where
  group : String
  ingressClass : String
  deletionRequested : Bool
  finalizers : List String
  deriving DecidableEq, Repr

/-- The objects of the API server, and the keys ever created, in creation order, which
`List` walks. -/
structure Cluster where
  keys : List Key
  objects : Key → Option Ingress

def Cluster.set (c : Cluster) (k : Key) (o : Option Ingress) : Cluster :=
  { c with objects := Function.update c.objects k o }

@[simp] theorem Cluster.set_keys (c : Cluster) (k : Key) (o : Option Ingress) :
    (c.set k o).keys = c.keys := rfl

@[simp] theorem Cluster.set_objects (c : Cluster) (k k' : Key) (o : Option Ingress) :
    (c.set k o).objects k' = if k' = k then o else c.objects k' := by
  simp [Cluster.set, Function.update_apply]

/-- The class `ingress.NewDefaultGroupLoader(k8sClient, annotationParser, "alb")` matches. -/
def ingressClass : String := "alb"

/-- The loader's membership test. -/
def isGroupMember (groupID : String) (o : Ingress) : Bool :=
  o.group == groupID && o.ingressClass == ingressClass && !o.deletionRequested

/-- `ingress.Group`. -/
structure Group where
  id : String
  members : List Key
  inactiveMembers : List Key
  deriving DecidableEq, Repr

/-- `groupLoader.Load`. -/
def load (c : Cluster) (groupID : String) : Group where
  id := groupID
  members := c.keys.filter fun k => (c.objects k).any (isGroupMember groupID)
  inactiveMembers := c.keys.filter fun k =>
    (c.objects k).any fun o => !isGroupMember groupID o && o.finalizers.contains groupID

@[simp] theorem load_id (c : Cluster) (groupID : String) : (load c groupID).id = groupID := rfl

/-- The loader's contract: no key is both a member and an inactive member. -/
theorem not_mem_members_of_inactive {c : Cluster} {groupID : String} {k : Key}
    (h : k ∈ (load c groupID).inactiveMembers) : k ∉ (load c groupID).members := by
  simp only [load, List.mem_filter] at h ⊢
  rintro ⟨-, hm⟩
  cases ho : c.objects k <;> simp_all

/-! ### The user's edits -/

inductive UserAction
  | create (k : Key) (group ingressClass : String)
  | setGroup (k : Key) (group : String)
  | setClass (k : Key) (ingressClass : String)
  | requestDeletion (k : Key)
  deriving DecidableEq, Repr

/-- A user edit. Deleting an object that carries a finalizer only marks it. -/
def userStep (c : Cluster) : UserAction → Cluster
  | .create k group cls =>
    match c.objects k with
    | none =>
      { keys := if k ∈ c.keys then c.keys else c.keys ++ [k]
        objects := Function.update c.objects k (some ⟨group, cls, false, []⟩) }
    | some _ => c
  | .setGroup k group =>
    match c.objects k with
    | some o => c.set k (some { o with group := group })
    | none => c
  | .setClass k cls =>
    match c.objects k with
    | some o => c.set k (some { o with ingressClass := cls })
    | none => c
  | .requestDeletion k =>
    match c.objects k with
    | some o =>
      if o.finalizers = [] then c.set k none else c.set k (some { o with deletionRequested := true })
    | none => c

/-! ### The finalizer manager -/

/-- An object with its finalizers replaced by `fs`; the API server removes it when its
deletion has been requested and `fs` is empty. -/
def withFinalizers (o : Ingress) (fs : List String) : Option Ingress :=
  if o.deletionRequested && fs.isEmpty then none else some { o with finalizers := fs }

/-- A patch of the object `k` by `f`: it fails when the object is gone. -/
def patch (c : Cluster) (k : Key) (f : Ingress → Option Ingress) : Except Failure Cluster :=
  match c.objects k with
  | some o => .ok (c.set k (f o))
  | none => .error (.error ("ingresses " ++ k ++ " not found"))

/-- One patch per listed object, in order. `fault = some n` makes the API call after `n`
patches fail. -/
def patchAll (c : Cluster) (f : Ingress → Option Ingress) :
    List Key → Option Nat → Except Failure Unit × Cluster
  | [], _ => (.ok (), c)
  | k :: ks, fault =>
    if fault = some 0 then (.error (.error "RequestError"), c)
    else match patch c k f with
      | .ok c => patchAll c f ks (fault.map (· - 1))
      | .error e => (.error e, c)

theorem patch_ok {c c₁ : Cluster} {k : Key} {f : Ingress → Option Ingress}
    (h : patch c k f = .ok c₁) : ∃ o, c.objects k = some o ∧ c₁ = c.set k (f o) := by
  unfold patch at h
  split at h
  · next o ho => exact ⟨o, ho, (Except.ok.inj h).symm⟩
  · cases h

/-- `AddGroupFinalizer`: the group's finalizer, added where it is missing. -/
def addGroupFinalizer (c : Cluster) (groupID : String) (members : List Key)
    (fault : Option Nat) : Except Failure Unit × Cluster :=
  patchAll c (fun o => if o.finalizers.contains groupID then some o
    else some { o with finalizers := o.finalizers ++ [groupID] }) members fault

/-- `RemoveGroupFinalizer`: the group's finalizer, removed. -/
def removeGroupFinalizer (c : Cluster) (groupID : String) (members : List Key)
    (fault : Option Nat) : Except Failure Unit × Cluster :=
  patchAll c (fun o => withFinalizers o (o.finalizers.filter (· ≠ groupID))) members fault

/-! ### What each call can do -/

/-- The object `k` carries the finalizer of the group `groupID`. -/
def hasFinalizer (c : Cluster) (k : Key) (groupID : String) : Bool :=
  (c.objects k).any (·.finalizers.contains groupID)

section Frame

variable {c c' : Cluster} {f : Ingress → Option Ingress} {r : Except Failure Unit}
  {ks : List Key} {fault : Option Nat}

/-- A property of each object that `f` keeps on the listed objects holds after `patchAll`. -/
theorem patchAll_objects (P : Key → Option Ingress → Prop)
    (hf : ∀ k ∈ ks, ∀ o, P k (some o) → P k (f o)) (h : patchAll c f ks fault = (r, c'))
    (hP : ∀ k, P k (c.objects k)) : ∀ k, P k (c'.objects k) := by
  induction ks generalizing c fault with
  | nil =>
    cases h
    exact hP
  | cons k ks ih =>
    simp only [patchAll] at h
    split_ifs at h
    · cases h
      exact hP
    rcases hp : patch c k f with e | c₁ <;> rw [hp] at h
    · cases h
      exact hP
    obtain ⟨o, ho, rfl⟩ := patch_ok hp
    refine ih (fun k' hk' => hf k' (.tail _ hk')) h fun k' => ?_
    simp only [Cluster.set_objects]
    split_ifs with hk
    · subst hk
      exact hf _ (.head _) _ (ho ▸ hP k')
    · exact hP k'

/-- A property that `f` establishes and keeps holds, after a successful `patchAll`, of
every listed object. -/
theorem patchAll_ok (Q : Option Ingress → Prop) (hQ : ∀ o, Q (f o))
    (hkeep : ∀ o, Q (some o) → Q (f o)) (h : patchAll c f ks fault = (.ok (), c')) :
    ∀ k ∈ ks, Q (c'.objects k) := by
  induction ks generalizing c fault with
  | nil => simp
  | cons k ks ih =>
    simp only [patchAll] at h
    split_ifs at h
    · cases h
    rcases hp : patch c k f with e | c₁ <;> rw [hp] at h
    · cases h
    obtain ⟨o, -, rfl⟩ := patch_ok hp
    intro k' hk'
    by_cases hmem : k' ∈ ks
    · exact ih h k' hmem
    obtain rfl : k' = k := by simpa [hmem] using hk'
    refine patchAll_objects (fun k x => k = k' → Q x) (fun _ _ o ho hk => hkeep o (ho hk))
      h (fun k hk => ?_) k' rfl
    subst hk
    simpa using hQ o

end Frame

section Finalizers

variable {c c' : Cluster} {r : Except Failure Unit} {groupID : String} {ks : List Key}
  {fault : Option Nat}

theorem hasFinalizer_addGroupFinalizer (h : addGroupFinalizer c groupID ks fault = (r, c'))
    {k : Key} {g : String} (hk : hasFinalizer c k g = true) : hasFinalizer c' k g = true := by
  refine patchAll_objects (fun k' x => k' = k → x.any (·.finalizers.contains g) = true)
    (fun _ _ o ho hk' => ?_) h (fun k' hk' => hk' ▸ hk) k rfl
  have := ho hk'
  split_ifs <;> simp_all

theorem addGroupFinalizer_ok (h : addGroupFinalizer c groupID ks fault = (.ok (), c')) :
    ∀ k ∈ ks, hasFinalizer c' k groupID = true :=
  patchAll_ok (fun x => x.any (·.finalizers.contains groupID) = true)
    (fun o => by split_ifs <;> simp_all) (fun o _ => by split_ifs <;> simp_all) h

/-- `RemoveGroupFinalizer` removes no other group's finalizer, and touches no object it
does not list. -/
theorem hasFinalizer_removeGroupFinalizer (h : removeGroupFinalizer c groupID ks fault = (r, c'))
    {k : Key} {g : String} (hne : g ≠ groupID ∨ k ∉ ks) (hk : hasFinalizer c k g = true) :
    hasFinalizer c' k g = true := by
  refine patchAll_objects (fun k' x => k' = k → x.any (·.finalizers.contains g) = true)
    (fun k' hk' o ho hkk => ?_) h (fun k' hk' => hk' ▸ hk) k rfl
  subst hkk
  have hg : g ∈ o.finalizers := by simpa using ho rfl
  have hne' : g ≠ groupID := hne.resolve_right (not_not.mpr hk')
  have hkept : g ∈ o.finalizers.filter (· ≠ groupID) := List.mem_filter.mpr ⟨hg, by simpa using hne'⟩
  have hnonempty : (o.finalizers.filter (· ≠ groupID)).isEmpty = false :=
    List.isEmpty_eq_false_iff_exists_mem.mpr ⟨g, hkept⟩
  simp only [withFinalizers, hnonempty, Bool.and_false, Bool.false_eq_true, if_false,
    Option.any_some]
  simpa using hkept

/-- No user edit removes a finalizer. -/
theorem hasFinalizer_userStep (u : UserAction) {k : Key} {g : String}
    (hk : hasFinalizer c k g = true) : hasFinalizer (userStep c u) k g = true := by
  unfold hasFinalizer at hk ⊢
  cases u with
  | create k' group cls =>
    simp only [userStep]
    split
    · next hnone =>
      have hne : k ≠ k' := by
        rintro rfl
        simp [hnone] at hk
      simpa [Function.update_noteq hne] using hk
    · exact hk
  | setGroup k' group | setClass k' group =>
    simp only [userStep]
    split
    · by_cases hkk : k = k' <;> simp_all
    · exact hk
  | requestDeletion k' =>
    simp only [userStep]
    split
    · next o ho =>
      by_cases hkk : k = k'
      · subst hkk
        rw [ho] at hk
        split_ifs <;> simp_all
      · split_ifs <;> simpa [hkk] using hk
    · exact hk

end Finalizers

end AlbIngress.IngressGroup
