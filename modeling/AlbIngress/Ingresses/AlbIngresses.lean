import AlbIngress.Controller.Annotations

/-!
The ingress list of package `albingresses`. `NewALBIngressesFromIngresses` builds it from
the cluster's ingresses; `Find`, `FindByID` and `RemovedIngresses` scan it. The list holds
pointers, and the per-ingress builder `NewALBIngressFromIngress` returns nil for an ingress
it cannot build. The loop appends that nil to the list, although its comment says a nil
result "should not be added". Every scan dereferences each element it passes, so a nil
element stops the process with a panic.

The builder, the class test `class.IsValid`, `albingress.ID` and `StripDesiredState` are
outside this package and are parameters. A Go panic is an `Except` error.
-/

namespace AlbIngress.Ingresses

open AlbIngress.Controller

/-- `albingress.ALBIngress`, with the fields this package reads: its `Id`, and its
`LoadBalancer`, of which only whether it is nil is read. -/
structure ALBIngress where
  id : String
  loadBalancer : Option String
  deriving DecidableEq, Repr

/-- `ALBIngresses`: a slice of pointers; `none` is nil. -/
abbrev ALBIngresses := List (Option ALBIngress)

/-- A Kubernetes ingress: its namespace, its name, and the annotations the class test and
the builder read. -/
structure Ingress where
  ns : String
  name : String
  annotations : AnnotationMap
  deriving DecidableEq, Repr

/-- The one panic these functions can raise: "invalid memory address or nil pointer
dereference". -/
inductive Panic
  | nilPointerDereference
  deriving DecidableEq, Repr

/-- Following a pointer: nil panics. -/
def deref {α : Type} : Option α → Except Panic α
  | some v => .ok v
  | none => .error .nilPointerDereference

@[simp] theorem deref_some {α : Type} (v : α) : deref (some v) = pure v := rfl

@[simp] theorem deref_none {α : Type} : deref (none : Option α) = .error .nilPointerDereference :=
  rfl

/-- The loop of `Find` from position `p`: `*v.Id == *b.Id`, the element first. -/
def findFrom (b : Option ALBIngress) : ALBIngresses → Nat → Except Panic Int
  | [], _ => .ok (-1)
  | v :: vs, p => do
    let v ← deref v
    let b ← deref b
    if v.id = b.id then pure p else findFrom b vs (p + 1)

def ALBIngresses.find (a : ALBIngresses) (b : Option ALBIngress) : Except Panic Int :=
  findFrom b a 0

/-- The loop of `FindByID` from position `p`. -/
def findByIDFrom (id : String) : ALBIngresses → Nat → Except Panic (Int × Option ALBIngress)
  | [], _ => .ok (-1, none)
  | v :: vs, p => do
    let w ← deref v
    if w.id = id then pure (p, v) else findByIDFrom id vs (p + 1)

def ALBIngresses.findByID (a : ALBIngresses) (id : String) :
    Except Panic (Int × Option ALBIngress) :=
  findByIDFrom id a 0

section Removed

variable (stripDesiredState : ALBIngress → ALBIngress)

/-- One turn of the loop of `RemovedIngresses`: the element as the turn leaves it, and
whether it goes to the deletable list. An element that `newList` lacks and that has a load
balancer is stripped of its desired state, through its pointer. -/
def removedStep (newList : ALBIngresses) (ingress : Option ALBIngress) :
    Except Panic (Option ALBIngress × Bool) := do
  let i ← newList.find ingress
  if i < 0 then
    let v ← deref ingress
    if v.loadBalancer.isSome then pure (some (stripDesiredState v), true) else pure (ingress, false)
  else pure (ingress, false)

/-- `RemovedIngresses`: the deletable ingresses, and the list `a` as the call leaves it. -/
def ALBIngresses.removedIngresses (a newList : ALBIngresses) :
    Except Panic (ALBIngresses × ALBIngresses) :=
  match a with
  | [] => .ok ([], [])
  | ingress :: a => do
    let (ingress, deletable) ← removedStep stripDesiredState newList ingress
    let (deleteableIngress, a) ← ALBIngresses.removedIngresses a newList
    pure (if deletable then ingress :: deleteableIngress else deleteableIngress, ingress :: a)

end Removed

section Build

variable (isValid : Ingress → Bool) (ingressID : String → String → String)
  (build : Ingress → Option ALBIngress → Option ALBIngress)

/-- `NewALBIngressesFromIngresses`: for each ingress of a valid class, the builder's result
on it and on the ingress with its ID in the list `existing`, appended even when nil. -/
def newALBIngressesFromIngresses (existing : ALBIngresses) :
    List Ingress → Except Panic ALBIngresses
  | [] => .ok []
  | ing :: ings =>
    if !isValid ing then newALBIngressesFromIngresses existing ings
    else do
      let (_, existingIngress) ← existing.findByID (ingressID ing.ns ing.name)
      let rest ← newALBIngressesFromIngresses existing ings
      pure (build ing existingIngress :: rest)

end Build

/-! ### Scans of a list without nil -/

@[simp] theorem error_bind {α β : Type} (e : Panic) (f : α → Except Panic β) :
    (Except.error e : Except Panic α) >>= f = .error e := rfl

@[simp] theorem ok_bind {α β : Type} (a : α) (f : α → Except Panic β) :
    (Except.ok a : Except Panic α) >>= f = f a := rfl

/-- Over a list without nil, `Find` of a non-nil ingress returns a position that is negative
exactly when no element has its ID. -/
theorem findFrom_of_nonnil (b : ALBIngress) (l : ALBIngresses) (hl : none ∉ l) (p : Nat) :
    ∃ i, findFrom (some b) l p = pure i ∧ (i < 0 ↔ ∀ w ∈ l, w.all (·.id ≠ b.id)) := by
  induction l generalizing p with
  | nil => exact ⟨-1, rfl, by simp⟩
  | cons w l ih =>
    obtain ⟨v, rfl⟩ := Option.ne_none_iff_exists'.mp (List.ne_of_not_mem_cons hl).symm
    by_cases h : v.id = b.id
    · exact ⟨p, by simp [findFrom, h],
        ⟨fun hp => absurd hp (by omega), fun hall => absurd (hall _ (.head _)) (by simp [h])⟩⟩
    · obtain ⟨i, hi, hiff⟩ := ih (List.not_mem_of_not_mem_cons hl) (p + 1)
      exact ⟨i, by simp [findFrom, h, hi], by simp [h, hiff]⟩

/-- Over a list without nil, `FindByID` returns the first ingress with the ID. -/
theorem findByIDFrom_map_some (id : String) (a : List ALBIngress) (p : Nat) :
    ∃ i, findByIDFrom id (a.map some) p = pure (i, a.find? (·.id = id)) := by
  induction a generalizing p with
  | nil => exact ⟨-1, rfl⟩
  | cons v a ih =>
    by_cases h : v.id = id
    · exact ⟨p, by simp [findByIDFrom, h]⟩
    · obtain ⟨i, hi⟩ := ih (p + 1)
      exact ⟨i, by simp [findByIDFrom, h, hi]⟩

/-- `v` is one `RemovedIngresses` returns: it has a load balancer, and no ingress of
`newList` has its ID. -/
def deletable (newList : ALBIngresses) (v : ALBIngress) : Bool :=
  v.loadBalancer.isSome && newList.all (·.all (·.id ≠ v.id))

section Removed

variable (stripDesiredState : ALBIngress → ALBIngress)

/-- What one turn of `RemovedIngresses` leaves of a non-nil element. -/
def afterRemoval (newList : ALBIngresses) (v : ALBIngress) : ALBIngress :=
  if deletable newList v then stripDesiredState v else v

theorem removedStep_of_nonnil (newList : ALBIngresses) (hl : none ∉ newList) (v : ALBIngress) :
    removedStep stripDesiredState newList (some v) =
      pure (some (afterRemoval stripDesiredState newList v), deletable newList v) := by
  obtain ⟨i, hi, hiff⟩ := findFrom_of_nonnil v newList hl 0
  simp only [removedStep, ALBIngresses.find, hi, pure_bind, deref_some, afterRemoval, deletable]
  by_cases hmiss : ∀ w ∈ newList, w.all (·.id ≠ v.id)
  · have hall : newList.all (·.all (·.id ≠ v.id)) = true := by simpa using hmiss
    simp only [hiff.mpr hmiss, if_true, hall, Bool.and_true]
    cases v.loadBalancer.isSome <;> rfl
  · have hall : newList.all (·.all (·.id ≠ v.id)) = false := by simpa using hmiss
    simp only [mt hiff.mp hmiss, if_false, hall, Bool.and_false, Bool.false_eq_true]

/-- Over lists without nil, `RemovedIngresses` returns, stripped, exactly the deletable
ingresses, and strips no other element. -/
theorem removedIngresses_of_nonnil (a : List ALBIngress) (newList : ALBIngresses)
    (hl : none ∉ newList) :
    ALBIngresses.removedIngresses stripDesiredState (a.map some) newList =
      pure ((a.filter (deletable newList)).map (some ∘ stripDesiredState),
        a.map (some ∘ afterRemoval stripDesiredState newList)) := by
  induction a with
  | nil => rfl
  | cons v a ih =>
    simp only [List.map_cons, ALBIngresses.removedIngresses, removedStep_of_nonnil _ _ hl, ih]
    by_cases h : deletable newList v <;> simp [h, afterRemoval]

end Removed

/-! ### A nil in the list -/

/-- A scan for `b` that meets a nil before an ingress with `b`'s ID panics. -/
theorem findFrom_panics (b : ALBIngress) (l : ALBIngresses) (p : Nat) (hnil : none ∈ l)
    (hmiss : ∀ v, some v ∈ l → v.id ≠ b.id) :
    findFrom (some b) l p = .error .nilPointerDereference := by
  induction l generalizing p with
  | nil => cases hnil
  | cons w l ih =>
    cases w with
    | none => rfl
    | some v =>
      have hl : none ∈ l := by simpa using hnil
      simp [findFrom, hmiss v (.head _), ih (p + 1) hl fun w hw => hmiss w (.tail _ hw)]

/-- `RemovedIngresses` panics as soon as `Find` of one of its elements does. -/
theorem removedIngresses_panics (stripDesiredState : ALBIngress → ALBIngress)
    (a newList : ALBIngresses) (x : ALBIngress) (hx : some x ∈ a)
    (hfind : newList.find (some x) = .error .nilPointerDereference) :
    ALBIngresses.removedIngresses stripDesiredState a newList = .error .nilPointerDereference := by
  induction a with
  | nil => cases hx
  | cons v a ih =>
    rcases List.mem_cons.mp hx with rfl | hx
    · simp [ALBIngresses.removedIngresses, removedStep, hfind]
    · rcases hstep : removedStep stripDesiredState newList v with ⟨⟨⟩⟩ | ⟨v', d⟩ <;>
        simp [ALBIngresses.removedIngresses, hstep, ih hx]

/-! ### One sync -/

section Sync

variable (stripDesiredState : ALBIngress → ALBIngress) (isValid : Ingress → Bool)
  (ingressID : String → String → String) (build : Ingress → Option ALBIngress → Option ALBIngress)

/-- A sync as the controller runs one: the new list from the cluster's ingresses, with the
list held from earlier syncs as the existing one, then `RemovedIngresses` of the held list
against it. It returns the new list, the deletable ingresses, and the held list as
`RemovedIngresses` leaves it. -/
def sync (held : ALBIngresses) (cluster : List Ingress) :
    Except Panic (ALBIngresses × ALBIngresses × ALBIngresses) := do
  let newList ← newALBIngressesFromIngresses isValid ingressID build held cluster
  let (deleteableIngress, held) ← ALBIngresses.removedIngresses stripDesiredState held newList
  pure (newList, deleteableIngress, held)

/-- The list a sync builds from a held list without nil. -/
def builtList (held : List ALBIngress) (cluster : List Ingress) : ALBIngresses :=
  (cluster.filter isValid).map fun ing =>
    build ing (held.find? (·.id = ingressID ing.ns ing.name))

/-- Over a held list without nil, `NewALBIngressesFromIngresses` returns the builder's
result for each ingress of a valid class, given the held ingress with its ID. -/
theorem newALBIngressesFromIngresses_map_some (held : List ALBIngress) (cluster : List Ingress) :
    newALBIngressesFromIngresses isValid ingressID build (held.map some) cluster =
      pure (builtList isValid ingressID build held cluster) := by
  induction cluster with
  | nil => rfl
  | cons ing cluster ih =>
    obtain ⟨i, hi⟩ := findByIDFrom_map_some (ingressID ing.ns ing.name) held 0
    cases h : isValid ing <;>
      simp [newALBIngressesFromIngresses, builtList, h, ih, ALBIngresses.findByID, hi,
        List.filter_cons]

theorem mem_builtList {held : List ALBIngress} {cluster : List Ingress} {w : Option ALBIngress} :
    w ∈ builtList isValid ingressID build held cluster ↔ ∃ ing ∈ cluster, isValid ing ∧
      build ing (held.find? (·.id = ingressID ing.ns ing.name)) = w := by
  simp [builtList, and_assoc]

/-- When the builder returns an ingress for every ingress of a valid class, a sync from a
held list without nil returns the built list, and `RemovedIngresses` returns, stripped,
the held ingresses that are deletable against it. -/
theorem sync_of_built (held : List ALBIngress) (cluster : List Ingress)
    (hbuilt : ∀ ing ∈ cluster, isValid ing → ∀ e, build ing e ≠ none) :
    sync stripDesiredState isValid ingressID build (held.map some) cluster =
      pure (builtList isValid ingressID build held cluster,
        (held.filter (deletable (builtList isValid ingressID build held cluster))).map
          (some ∘ stripDesiredState),
        held.map (some ∘ afterRemoval stripDesiredState
          (builtList isValid ingressID build held cluster))) := by
  have hl : none ∉ builtList isValid ingressID build held cluster := by
    rw [mem_builtList]
    rintro ⟨ing, hing, hvalid, hnone⟩
    exact hbuilt ing hing hvalid _ hnone
  simp only [sync, newALBIngressesFromIngresses_map_some, pure_bind,
    removedIngresses_of_nonnil _ _ _ hl]

/-- A sync in which `default/web` is built and `default/old`, which has left the cluster, is
deletable. -/
theorem sync_of_built_web :
    sync id (fun _ => true) (fun ns name => ns ++ "/" ++ name)
        (fun ing _ => some ⟨ing.ns ++ "/" ++ ing.name, some ing.name⟩)
        [some ⟨"default/old", some "old"⟩] [⟨"default", "web", []⟩] =
      .ok ([some ⟨"default/web", some "web"⟩], [some ⟨"default/old", some "old"⟩],
        [some ⟨"default/old", some "old"⟩]) :=
  sync_of_built id (fun _ => true) (fun ns name => ns ++ "/" ++ name)
    (fun ing _ => some ⟨ing.ns ++ "/" ++ ing.name, some ing.name⟩) [⟨"default/old", some "old"⟩]
    [⟨"default", "web", []⟩] (by simp)

/-- The earlier sync of the scenario below: with its subnets annotation set, `default/web`
is built with a load balancer, and nothing is deletable. -/
example : sync id (fun _ => true) (fun ns name => ns ++ "/" ++ name)
      (fun ing _ => if ing.annotations.get subnetsKey = "" then none
        else some ⟨ing.ns ++ "/" ++ ing.name, some ing.name⟩)
      [] [⟨"default", "web", [(subnetsKey, "subnet-a")]⟩] =
    .ok ([some ⟨"default/web", some "web"⟩], [], []) :=
  rfl

/-- Against a built list whose ingresses carry the ID of the ingress they were built from,
a held ingress is deletable exactly when it has a load balancer and no cluster ingress of a
valid class has its ID. -/
theorem deletable_builtList (held : List ALBIngress) (cluster : List Ingress)
    (hbuilt : ∀ ing ∈ cluster, isValid ing → ∀ e, build ing e ≠ none)
    (hid : ∀ ing e v, build ing e = some v → v.id = ingressID ing.ns ing.name) (v : ALBIngress) :
    deletable (builtList isValid ingressID build held cluster) v = true ↔
      v.loadBalancer.isSome ∧ ∀ ing ∈ cluster, isValid ing → ingressID ing.ns ing.name ≠ v.id := by
  simp only [deletable, Bool.and_eq_true, List.all_eq_true, decide_eq_true_eq, mem_builtList]
  refine and_congr_right fun _ => ⟨fun h ing hing hvalid => ?_, fun h w ⟨ing, hing, hvalid, hw⟩ => ?_⟩
  · obtain ⟨u, hu⟩ := Option.ne_none_iff_exists'.mp (hbuilt ing hing hvalid
      (held.find? (·.id = ingressID ing.ns ing.name)))
    have := h _ ⟨ing, hing, hvalid, hu⟩
    rw [← hid _ _ _ hu]
    simpa using this
  · subst hw
    cases hu : build ing (held.find? (·.id = ingressID ing.ns ing.name)) with
    | none => rfl
    | some u => simpa [hid _ _ _ hu] using h ing hing hvalid

theorem deletable_builtList_web :
    deletable (builtList (fun _ => true) (fun ns name => ns ++ "/" ++ name)
      (fun ing _ => some ⟨ing.ns ++ "/" ++ ing.name, some ing.name⟩) []
      [⟨"default", "web", []⟩]) ⟨"default/old", some "old"⟩ = true :=
  (deletable_builtList (fun _ => true) (fun ns name => ns ++ "/" ++ name)
    (fun ing _ => some ⟨ing.ns ++ "/" ++ ing.name, some ing.name⟩) [] [⟨"default", "web", []⟩]
    (by simp) (fun _ _ _ h => by cases h; rfl) ⟨"default/old", some "old"⟩).mpr
    ⟨rfl, by simp⟩

/-- A sync in which the builder returns nil for an ingress of a valid class, from a held list
without nil that holds an ingress `x` no built ingress has the ID of: the nil goes into the
new list, and `RemovedIngresses` meets it while it looks for `x`, and panics. `x` may be
the ingress whose build failed, still in the cluster, or one that has left it. -/
theorem sync_panics_on_nil_build (held : List ALBIngress) (cluster : List Ingress)
    (ing : Ingress) (x : ALBIngress) (hing : ing ∈ cluster) (hvalid : isValid ing = true)
    (hnil : build ing (held.find? (·.id = ingressID ing.ns ing.name)) = none) (hx : x ∈ held)
    (hmiss : ∀ ing' ∈ cluster, isValid ing' = true → ∀ e v, build ing' e = some v → v.id ≠ x.id) :
    sync stripDesiredState isValid ingressID build (held.map some) cluster =
      .error .nilPointerDereference := by
  have hfind : (builtList isValid ingressID build held cluster).find (some x) =
      .error .nilPointerDereference := by
    apply findFrom_panics
    · exact (mem_builtList isValid ingressID build).mpr ⟨ing, hing, hvalid, hnil⟩
    · intro v hv
      obtain ⟨ing', hing', hvalid', hv'⟩ := (mem_builtList isValid ingressID build).mp hv
      exact hmiss ing' hing' hvalid' _ _ hv'
  simp only [sync, newALBIngressesFromIngresses_map_some, pure_bind,
    removedIngresses_panics _ _ _ x (List.mem_map_of_mem some hx) hfind, error_bind]

/-- The ingress `default/web` was built with a load balancer by an earlier sync; its subnets
annotation has since been emptied, so the builder now returns nil: the next sync panics. -/
theorem sync_panics_on_nil_build_web :
    AnnotationMap.get [] subnetsKey = "" ∧
      sync id (fun _ => true) (fun ns name => ns ++ "/" ++ name)
          (fun ing _ => if ing.annotations.get subnetsKey = "" then none
            else some ⟨ing.ns ++ "/" ++ ing.name, some ing.name⟩)
          [some ⟨"default/web", some "web"⟩] [⟨"default", "web", []⟩] =
        .error .nilPointerDereference :=
  ⟨rfl, sync_panics_on_nil_build id (fun _ => true) (fun ns name => ns ++ "/" ++ name)
    (fun ing _ => if ing.annotations.get subnetsKey = "" then none
      else some ⟨ing.ns ++ "/" ++ ing.name, some ing.name⟩)
    [⟨"default/web", some "web"⟩] [⟨"default", "web", []⟩] ⟨"default", "web", []⟩
    ⟨"default/web", some "web"⟩ (List.mem_singleton_self _) rfl rfl (List.mem_singleton_self _)
    (by simp [AnnotationMap.get])⟩

end Sync

end AlbIngress.Ingresses