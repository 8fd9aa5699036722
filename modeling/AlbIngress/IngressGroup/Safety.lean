import AlbIngress.IngressGroup.Reconciler

/-!
Finalizer safety of the group reconciler over whole runs. In every state that any
interleaving of user edits, restarts and steps of `Reconcile` calls reaches, whatever the
outcome of each call, every ingress whose rules a group's deployed stack holds carries
that group's finalizer. So none of them leaves the cluster: the API server removes an
object only once it carries no finalizer.

The argument is the order of the calls. `AddGroupFinalizer` runs on the members before the
`Deploy` of the stack made of them, and `RemoveGroupFinalizer` runs on the inactive members
only after a `Deploy` of that stack has succeeded; the loader never lists a key as both.
-/

namespace AlbIngress.IngressGroup

open AlbIngress.Controller

/-- Every ingress a group's deployed stack holds carries the group's finalizer. -/
def FinalizersHeld (w : World) : Prop :=
  ∀ g, ∀ k ∈ w.deployed g, hasFinalizer w.cluster k g = true

/-- The call has added the group's finalizer to its members. -/
def Stage.finalizersAdded : Stage → Bool
  | .loaded => false
  | _ => true

/-- The call's stack, made of its members, is deployed. -/
def Stage.stackDeployed : Stage → Bool
  | .deployed _ | .resolved => true
  | _ => false

/-- The invariant of every run: the finalizers are held, and the call in flight has done
what its stage says. -/
structure Invariant (w : World) : Prop where
  held : FinalizersHeld w
  disjoint : ∀ r, w.inflight = some r → ∀ k ∈ r.group.inactiveMembers, k ∉ r.group.members
  members : ∀ r, w.inflight = some r → r.stage.finalizersAdded →
    ∀ k ∈ r.group.members, hasFinalizer w.cluster k r.group.id = true
  inactive : ∀ r, w.inflight = some r → r.stage.stackDeployed →
    ∀ k ∈ r.group.inactiveMembers, k ∉ w.deployed r.group.id

section Invariant

variable {w : World}

theorem Invariant.of_idle (hheld : FinalizersHeld w) (h : w.inflight = none) : Invariant w :=
  ⟨hheld, by simp [h], by simp [h], by simp [h]⟩

theorem Invariant.finish (hheld : FinalizersHeld w) (r : Except Failure Unit) :
    Invariant (w.finish r) :=
  .of_idle hheld rfl

/-- A cluster change that keeps every finalizer keeps them held. -/
theorem FinalizersHeld.of_cluster (h : FinalizersHeld w) {c : Cluster}
    (hc : ∀ g, ∀ k ∈ w.deployed g, hasFinalizer w.cluster k g = true → hasFinalizer c k g = true) :
    FinalizersHeld { w with cluster := c } :=
  fun g k hk => hc g k hk (h g k hk)

/-- A new stack for `g` made of ingresses that carry `g`'s finalizer keeps them held. -/
theorem FinalizersHeld.of_deployed (h : FinalizersHeld w) {g : String} {ks : List Key}
    (hks : ∀ k ∈ ks, hasFinalizer w.cluster k g = true) :
    FinalizersHeld { w with deployed := Function.update w.deployed g ks } := by
  intro g' k hk
  by_cases hg : g' = g
  · subst hg
    exact hks k (by simpa using hk)
  · exact h g' k (by simpa [hg] using hk)

theorem invariant_load (h : Invariant w) (groupID : String) (ok : Bool) :
    Invariant (step w (.load groupID ok)) := by
  simp only [step]
  split
  · exact h
  · split_ifs
    · refine ⟨h.held, ?_, ?_, ?_⟩ <;> rintro r ⟨⟩
      · exact fun k hk => not_mem_members_of_inactive hk
      · simp [Stage.finalizersAdded]
      · simp [Stage.stackDeployed]
    · exact .finish h.held _

theorem invariant_addGroupFinalizer (h : Invariant w) (fault : Option Nat) :
    Invariant (step w (.addGroupFinalizer fault)) := by
  simp only [step]
  split
  · next group hflight =>
    rcases haf : addGroupFinalizer w.cluster group.id group.members fault with ⟨e | _, c⟩
    · exact .finish (h.held.of_cluster fun _ _ _ => hasFinalizer_addGroupFinalizer haf) _
    · refine ⟨h.held.of_cluster fun _ _ _ => hasFinalizer_addGroupFinalizer haf, ?_, ?_, ?_⟩ <;>
        rintro r ⟨⟩
      · exact h.disjoint ⟨group, .loaded⟩ hflight
      · exact fun _ => addGroupFinalizer_ok haf
      · simp [Stage.stackDeployed]
  · exact h

/-- `Build`, `Marshal` and `Resolve` only move the stage, within what it has established. -/
theorem Invariant.advance (h : Invariant w) {r : Run} (hflight : w.inflight = some r)
    (stage : Stage) (hmembers : stage.finalizersAdded → r.stage.finalizersAdded)
    (hdeployed : stage.stackDeployed → r.stage.stackDeployed) :
    Invariant { w with inflight := some ⟨r.group, stage⟩ } := by
  refine ⟨h.held, ?_, ?_, ?_⟩ <;> rintro r' ⟨⟩
  · exact h.disjoint r hflight
  · exact fun hs => h.members r hflight (hmembers hs)
  · exact fun hs => h.inactive r hflight (hdeployed hs)

theorem invariant_build (h : Invariant w) (result : Except String (Option LoadBalancer)) :
    Invariant (step w (.build result)) := by
  simp only [step]
  split
  · next group lb hflight => exact h.advance hflight (.built lb) (fun _ => rfl) nofun
  · exact .finish h.held _
  · exact h

theorem invariant_marshal (h : Invariant w) (result : Except String String) :
    Invariant (step w (.marshal result)) := by
  simp only [step]
  split
  · next group lb _ hflight => exact h.advance hflight (.marshalled lb) (fun _ => rfl) nofun
  · exact .finish h.held _
  · exact h

theorem invariant_deploy (h : Invariant w) (result : Except (List Key) String) :
    Invariant (step w (.deploy result)) := by
  simp only [step]
  split
  · next group lb arn hflight =>
    have hmembers := h.members _ hflight rfl
    have hdisjoint := h.disjoint _ hflight
    refine ⟨h.held.of_deployed hmembers, ?_, ?_, ?_⟩ <;> rintro r ⟨⟩
    · exact hdisjoint
    · exact fun _ k hk => hmembers k hk
    · intro _ k hk hdep
      simp only [deployedAfter, Function.update_same] at hdep
      exact hdisjoint k hk hdep
  · next group lb applied hflight =>
    refine .finish (h.held.of_deployed fun k hk => ?_) _
    simp only [List.mem_filter, Bool.or_eq_true, List.contains, List.elem_eq_mem,
      decide_eq_true_eq] at hk
    rcases hk.2 with hold | hmem
    · exact h.held _ k hold
    · exact h.members _ hflight rfl k hmem
  · exact h

theorem invariant_resolve (h : Invariant w) : Invariant (step w .resolve) := by
  simp only [step]
  split
  · next group lb hflight =>
    split
    · exact h.advance hflight .resolved (fun _ => rfl) fun _ => rfl
    · exact .finish h.held _
  · exact h

/-- `RemoveGroupFinalizer` runs after a successful deploy of a stack without the inactive
members, so it removes the finalizer of no deployed ingress. -/
theorem invariant_removeGroupFinalizer (h : Invariant w) (fault : Option Nat) :
    Invariant (step w (.removeGroupFinalizer fault)) := by
  simp only [step]
  split
  · next group hflight =>
    have hinactive := h.inactive _ hflight rfl
    rcases hr : removeGroupFinalizer w.cluster group.id group.inactiveMembers fault with ⟨r, c⟩
    refine .finish (h.held.of_cluster fun g k hk hfin => ?_) r
    refine hasFinalizer_removeGroupFinalizer hr ?_ hfin
    by_cases hg : g = group.id
    · subst hg
      exact .inr fun hmem => hinactive k hmem hk
    · exact .inl hg
  · exact h

theorem invariant_user (h : Invariant w) (u : UserAction) : Invariant (step w (.user u)) :=
  ⟨h.held.of_cluster fun _ _ _ => hasFinalizer_userStep u, h.disjoint,
    fun r hr hs k hk => hasFinalizer_userStep u (h.members r hr hs k hk), h.inactive⟩

theorem Invariant.step (h : Invariant w) (a : Action) : Invariant (step w a) := by
  cases a with
  | user u => exact invariant_user h u
  | load groupID ok => exact invariant_load h groupID ok
  | addGroupFinalizer fault => exact invariant_addGroupFinalizer h fault
  | build result => exact invariant_build h result
  | marshal result => exact invariant_marshal h result
  | deploy result => exact invariant_deploy h result
  | resolve => exact invariant_resolve h
  | removeGroupFinalizer fault => exact invariant_removeGroupFinalizer h fault
  | restart => exact .of_idle h.held rfl

theorem Invariant.run (h : Invariant w) (actions : List Action) :
    Invariant (run w actions) := by
  induction actions generalizing w with
  | nil => exact h
  | cons a actions ih => exact ih (h.step a)

end Invariant

/-- An empty cluster, no stack deployed, no call in flight. -/
def initial : World :=
  ⟨⟨[], fun _ => none⟩, fun _ => [], none, none⟩

theorem invariant_initial : Invariant initial :=
  .of_idle (fun _ _ hk => by simp [initial] at hk) rfl

/-- In every state a run reaches from the empty cluster, whatever its interleaving of user
edits, restarts and `Reconcile` steps and whatever their outcomes, every ingress whose
rules a group's deployed stack holds is in the cluster and carries the group's finalizer. -/
theorem deployed_ingresses_keep_finalizer (actions : List Action) (g : String) (k : Key)
    (hk : k ∈ (run initial actions).deployed g) :
    ∃ o, (run initial actions).cluster.objects k = some o ∧ g ∈ o.finalizers := by
  have hfin := (invariant_initial.run actions).held g k hk
  cases ho : (run initial actions).cluster.objects k with
  | none => simp [hasFinalizer, ho] at hfin
  | some o => exact ⟨o, rfl, by simpa [hasFinalizer, ho] using hfin⟩

theorem deployed_ingresses_keep_finalizer_web :
    let actions : List Action := [.user (.create "default/web" "web" "alb"), .load "web" true,
      .addGroupFinalizer none, .build (.ok (some ⟨"web", none⟩)), .marshal (.ok "{}"),
      .deploy (.ok "arn")]
    "default/web" ∈ (run initial actions).deployed "web" ∧
      ∃ o, (run initial actions).cluster.objects "default/web" = some o ∧ "web" ∈ o.finalizers :=
  ⟨by decide, deployed_ingresses_keep_finalizer _ "web" "default/web" (by decide)⟩

end AlbIngress.IngressGroup
