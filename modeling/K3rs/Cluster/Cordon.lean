import K3rs.Cluster.Nodes

/-!
# Cordons

A node that has been cordoned is to stay so until somebody begins to uncordon it.  Every writer of
nodes lists the nodes and puts back whole nodes, and others may write in between: a heartbeat
that has listed the node before the cordon puts it back as it was.

* `cordon_kept`: where whoever writes the node has seen it cordoned, and no uncordon is late, a
  cordon that has been answered with success stays.
-/

namespace K3rs

open Programs Transition

/-! ## Runs -/

/-- The key of a node. -/
def nodeKey (nodeName : String) : String := "/registry/nodes/" ++ nodeName

/-- The store and its writers.  The rest records what has happened to one node. -/
structure Cordoning where
  pool : Pool String Object NodeTask (Option Reply)
  /-- A cordon or a drain of the node has returned success, and no uncordon has begun since. -/
  held : Bool
  /-- The cordons and drains of the node that have put it. -/
  marked : List ℕ

namespace Cordoning

variable (nodeName : String) (s : Cordoning)

/-- A store that nobody uses. -/
def start (store : Registry) : Cordoning := ⟨Pool.idle store, false, []⟩

/-- One step. -/
def step : PoolStep NodeTask → Cordoning
  | .spawn tid task =>
      { s with
        pool := s.pool.step NodeTask.code (.spawn tid task)
        held :=
          if (s.pool.threads tid).isNone ∧ task = .uncordon nodeName then false else s.held }
  | .advance tid outcome =>
      let pool := s.pool.step NodeTask.code (.advance tid outcome)
      match s.pool.threads tid with
      | some ⟨task, .op o next, _⟩ =>
          let answer := o.answer s.pool.store outcome
          { pool := pool
            held := s.held ||
              (task.cordons nodeName && (next answer).result.any NodeTask.succeeds)
            marked := if task.cordons nodeName && NodeTask.putsNode o answer then tid :: s.marked
              else s.marked }
      | _ => { s with pool := pool }

/-- **What is asked of a state**: while the cordon is held, the stored node is cordoned. -/
def Kept : Prop :=
  s.held = true → ∃ node, s.pool.store.lookup (nodeKey nodeName) = some (.node node) ∧ node.Cordoned

/-! ## The condition -/

/-- Every node is under its name. -/
def Registered (store : Registry) : Prop :=
  ∀ e ∈ store.rows, ∀ node ∈ e.2.asNode, e.1 = nodeKey node.name

/-- The cordon is held, or a drain that has put the node is still under way. -/
def Guarded : Prop :=
  s.held = true ∨ ∃ tid ∈ s.marked, ∃ th ∈ s.pool.threads tid, th.prog.result.isNone = true

/-- The put of a task, which has seen the node so, does not take the cordon away. -/
def Leaves (seen : Option Object) : NodeTask → Prop
  | .cordon _ => True
  | .drain _ => True
  | .uncordon _ => False
  | .heartbeat _ _ => ∃ node ∈ seen.bind Object.asNode, node.Cordoned
  | .controller _ => ∃ node ∈ seen.bind Object.asNode, node.Cordoned

/-- The condition on a step: a put of the node, while the cordon is held or a drain is under way,
leaves it cordoned. -/
def Spared : PoolStep NodeTask → Prop
  | .spawn _ _ => True
  | .advance tid _ =>
      match s.pool.threads tid with
      | some ⟨task, .op (.put k _) _, seen⟩ =>
          k = nodeKey nodeName → s.Guarded → Leaves (seen.last k) task
      | _ => True

instance : Decidable s.Guarded := by
  unfold Guarded
  infer_instance

instance (seen : Option Object) (task : NodeTask) : Decidable (Leaves seen task) := by
  unfold Leaves
  split <;> infer_instance

instance (a : PoolStep NodeTask) : Decidable (s.Spared nodeName a) := by
  unfold Spared
  split
  · infer_instance
  · split <;> infer_instance

/-! ## Every run -/

variable {nodeName s}

/-- What holds in every state. -/
structure Inv (nodeName : String) (s : Cordoning) : Prop where
  disciplined : s.pool.Disciplined NodeTask.Writes fun _ _ _ => True
  registered : ∀ k node, s.pool.store.lookup k = some (.node node) → k = nodeKey node.name
  seen : ∀ tid th k node, s.pool.threads tid = some th → th.seen.Ever k (.node node) →
    k = nodeKey node.name
  waits : ∀ tid th, s.pool.threads tid = some th → th.task.cordons nodeName = true →
    tid ∈ s.marked ∨ NodeTask.Waits th.prog
  begun : ∀ tid ∈ s.marked, ∃ th, s.pool.threads tid = some th
  cordoned : s.Guarded →
    ∃ node, s.pool.store.lookup (nodeKey nodeName) = some (.node node) ∧ node.Cordoned

theorem pool_step (a : PoolStep NodeTask) :
    (s.step nodeName a).pool = s.pool.step NodeTask.code a := by
  cases a with
  | spawn tid task => rfl
  | advance tid outcome =>
      rw [step]
      split <;> rfl

/-- A task puts a node under the name that the node has. -/
theorem Inv.key_of_put (h : s.Inv nodeName) {tid : ℕ} {task : NodeTask} {k : String} {node : Node}
    {next : (Op.put k (Object.node node)).Answer → Program (Option Reply)}
    {seen : Seen String Object}
    (hthread : s.pool.threads tid = some ⟨task, .op (.put k (.node node)) next, seen⟩) :
    k = nodeKey node.name := by
  have hwrites := h.disciplined.next hthread
  cases hwrites with
  | node _ old _ hseen hname =>
      rw [hname]
      exact h.seen tid _ k old hthread (Seen.Ever.of_last hseen)

theorem Inv.registered_step (h : s.Inv nodeName) {a : PoolStep NodeTask} {k : String} {node : Node}
    (hlookup : (s.pool.step NodeTask.code a).store.lookup k = some (.node node)) :
    k = nodeKey node.name := by
  rcases Pool.lookup_step hlookup with hold | ⟨tid, outcome, task, next, seen, rfl, hthread⟩
  · exact h.registered k node hold
  · exact h.key_of_put hthread

theorem Inv.seen_step (h : s.Inv nodeName) {a : PoolStep NodeTask} {tid : ℕ} {k : String}
    {th : Thread String Object NodeTask (Option Reply)} {node : Node}
    (hth : (s.pool.step NodeTask.code a).threads tid = some th)
    (hnode : th.seen.Ever k (.node node)) : k = nodeKey node.name := by
  rcases Pool.ever_step hth hnode with ⟨th', hth', hseen⟩ | hbefore | hafter
  · exact h.seen tid th' k node hth' hseen
  · exact h.registered k node hbefore
  · exact h.registered_step hafter

/-! ## Tasks that begin -/

theorem store_spawn (tid : ℕ) (task : NodeTask) :
    (s.step nodeName (.spawn tid task)).pool.store = s.pool.store := by
  change (s.pool.step NodeTask.code (.spawn tid task)).store = s.pool.store
  rw [Pool.step]
  split <;> rfl

theorem Inv.spawn (h : s.Inv nodeName) (tid : ℕ) (task : NodeTask) :
    (s.step nodeName (.spawn tid task)).Inv nodeName where
  disciplined := h.disciplined.step NodeTask.code_meets _
  registered k node hlookup := h.registered_step hlookup
  seen tid' th k node hth hnode := h.seen_step hth hnode
  waits tid' th hth hcordons := by
    rcases Pool.threads_spawn hth with hold | ⟨rfl, -, rfl⟩
    · exact h.waits tid' th hold hcordons
    · exact Or.inr (NodeTask.code_waits hcordons)
  begun tid' htid := by
    obtain ⟨th, hth⟩ := h.begun tid' htid
    exact Pool.threads_step hth
  cordoned hguarded := by
    rw [store_spawn]
    refine h.cordoned ?_
    rcases hguarded with hheld | ⟨tid', htid, th, hth, hruns⟩
    · simp only [step] at hheld
      split_ifs at hheld
      exact Or.inl hheld
    · -- What has put the node has not just begun.
      obtain ⟨th', hth'⟩ := h.begun tid' htid
      rcases Pool.threads_spawn hth with hold | ⟨rfl, hnone, -⟩
      · exact Or.inr ⟨tid', htid, th, hold, hruns⟩
      · exact nomatch hnone.symm.trans hth'

/-! ## Operations -/

section Advance

variable {tid : ℕ} {outcome : Outcome} {task : NodeTask} {o : Op String Object}
  {next : o.Answer → Program (Option Reply)} {seen : Seen String Object}

theorem step_advance (hthread : s.pool.threads tid = some ⟨task, .op o next, seen⟩) :
    s.step nodeName (.advance tid outcome) =
      { pool := s.pool.step NodeTask.code (.advance tid outcome)
        held := s.held || (task.cordons nodeName &&
          (next (o.answer s.pool.store outcome)).result.any NodeTask.succeeds)
        marked :=
          if task.cordons nodeName && NodeTask.putsNode o (o.answer s.pool.store outcome) then
            tid :: s.marked
          else s.marked } := by
  simp only [step, hthread]

/-- How the node comes to be guarded: it was so before, or a cordon or a drain puts it. -/
theorem Inv.guarded_cases (h : s.Inv nodeName)
    (hthread : s.pool.threads tid = some ⟨task, .op o next, seen⟩)
    (hguarded : (s.step nodeName (.advance tid outcome)).Guarded) :
    s.Guarded ∨ task.cordons nodeName = true ∧
      NodeTask.putsNode o (o.answer s.pool.store outcome) = true := by
  -- A cordon or drain that has put the node and goes on now was under way before.
  have hmarked : tid ∈ s.marked → s.Guarded := fun htid => Or.inr ⟨tid, htid, _, hthread, rfl⟩
  rw [step_advance hthread] at hguarded
  rcases hguarded with hheld | ⟨tid', htid, th, hth, hruns⟩
  · rcases Bool.or_eq_true_iff.mp hheld with hheld | hreturns
    · exact Or.inl (Or.inl hheld)
    · obtain ⟨hcordons, hresult⟩ := Bool.and_eq_true_iff.mp hreturns
      rcases h.waits tid _ hthread hcordons with htid | hwaits
      · exact Or.inl (hmarked htid)
      · refine Or.inr ⟨hcordons, (hwaits _).resolve_right fun hnext => ?_⟩
        cases hprog : next (o.answer s.pool.store outcome) with
        | done result =>
            rw [hprog] at hnext hresult
            exact hnext hresult
        | op o' next' =>
            rw [hprog] at hresult
            exact nomatch hresult
  · rw [Pool.step_advance hthread] at hth
    by_cases hsame : tid' = tid
    · subst hsame
      dsimp only at htid
      split_ifs at htid with hputs
      · exact Or.inr (Bool.and_eq_true_iff.mp hputs)
      · exact Or.inl (hmarked htid)
    · have hth' : s.pool.threads tid' = some th := by
        simpa only [Function.update_of_ne hsame, Option.mem_def] using hth
      refine Or.inl (Or.inr ⟨tid', ?_, th, hth', hruns⟩)
      dsimp only at htid
      split_ifs at htid
      · exact (List.mem_cons.mp htid).resolve_left hsame
      · exact htid

/-- A cordon or a drain changes its node, and leaves it cordoned. -/
theorem changes_of_cordons {node node' : Node} (hcordons : task.cordons nodeName = true)
    (hchange : task.Changes node node') : node.name = nodeName ∧ node'.Cordoned := by
  cases task with
  | cordon nodeName' => exact ⟨hchange.1.trans (of_decide_eq_true hcordons), hchange.2⟩
  | drain nodeName' => exact ⟨hchange.1.trans (of_decide_eq_true hcordons), hchange.2⟩
  | uncordon nodeName' => exact nomatch hcordons
  | heartbeat nodeName' now => exact nomatch hcordons
  | controller now => exact nomatch hcordons

/-- A node that has been put is in the store. -/
theorem lookup_of_putsNode {store : Registry}
    (hputs : NodeTask.putsNode o (o.answer store outcome) = true) :
    ∃ k node, o = .put k (.node node) ∧ (o.apply store outcome).lookup k = some (.node node) := by
  cases o with
  | get k => exact nomatch hputs
  | list p => exact nomatch hputs
  | delete k => exact nomatch hputs
  | put k v =>
      cases v with
      | node node =>
          cases outcome with
          | fail e => exact nomatch hputs
          | ok => exact ⟨k, node, rfl, KeyValue.lookup_insert_self _ _ _⟩
          | cut count => exact ⟨k, node, rfl, KeyValue.lookup_insert_self _ _ _⟩
      | _ => exact nomatch hputs

/-- The put of a cordon or a drain. -/
theorem Inv.cordoned_of_puts (h : s.Inv nodeName)
    (hthread : s.pool.threads tid = some ⟨task, .op o next, seen⟩)
    (hcordons : task.cordons nodeName = true)
    (hputs : NodeTask.putsNode o (o.answer s.pool.store outcome) = true) :
    ∃ node, (o.apply s.pool.store outcome).lookup (nodeKey nodeName) = some (.node node) ∧
      node.Cordoned := by
  obtain ⟨k, node', rfl, hlookup⟩ := lookup_of_putsNode hputs
  have hkey := h.key_of_put hthread
  have hwrites := h.disciplined.next hthread
  cases hwrites with
  | node _ node _ hseen hname hchange =>
      obtain ⟨hnode, hcordoned⟩ := changes_of_cordons hcordons hchange
      rw [hname, hnode] at hkey
      exact ⟨node', hkey ▸ hlookup, hcordoned⟩

/-- A put that leaves the node cordoned, by what the task has seen. -/
theorem cordoned_of_leaves {node node' : Node} {k : String} (hleaves : Leaves (seen.last k) task)
    (hseen : seen.last k = some (.node node)) (hchange : task.Changes node node') :
    node'.Cordoned := by
  have hsame : (∃ n ∈ (seen.last k).bind Object.asNode, n.Cordoned) →
      node'.unschedulable = node.unschedulable ∧ node'.taints = node.taints → node'.Cordoned := by
    rintro ⟨n, hn, hcordoned⟩ ⟨hunschedulable, htaints⟩
    rw [hseen] at hn
    obtain rfl : node = n := Option.some_inj.mp hn
    rw [Node.Cordoned, Node.hasTaint, hunschedulable, htaints]
    exact hcordoned
  cases task with
  | cordon nodeName' => exact hchange.2
  | drain nodeName' => exact hchange.2
  | uncordon nodeName' => exact hleaves.elim
  | heartbeat nodeName' now => exact hsame hleaves hchange
  | controller now => exact hsame hleaves hchange

/-- A put that the condition allows leaves a guarded node cordoned. -/
theorem Inv.cordoned_of_guarded (h : s.Inv nodeName)
    (hthread : s.pool.threads tid = some ⟨task, .op o next, seen⟩)
    (hspared : s.Spared nodeName (.advance tid outcome)) (hguarded : s.Guarded) :
    ∃ node, (o.apply s.pool.store outcome).lookup (nodeKey nodeName) = some (.node node) ∧
      node.Cordoned := by
  have hwrites := h.disciplined.next hthread
  rcases o.lookup_apply s.pool.store outcome (nodeKey nodeName) with hkeep | ⟨v, rfl, hput⟩ |
    ⟨rfl, -⟩
  · rw [hkeep]
    exact h.cordoned hguarded
  · simp only [Spared, hthread] at hspared
    cases hwrites with
    | node _ node node' hseen hname hchange =>
        exact ⟨node', hput, cordoned_of_leaves (hspared trivial hguarded) hseen hchange⟩
    | pod _ p hkey =>
        have hnode : startsWith (nodeKey nodeName) "/registry/nodes/" = true := startsWith_append _ _
        rw [hnode] at hkey
        cases hkey
  · cases hwrites

end Advance

/-- A thread that has ended does nothing. -/
theorem step_ended {tid : ℕ} (outcome : Outcome)
    (hended : ∀ task o next seen, s.pool.threads tid ≠ some ⟨task, .op o next, seen⟩) :
    s.step nodeName (.advance tid outcome) = s := by
  have hpool : s.pool.step NodeTask.code (.advance tid outcome) = s.pool := by
    rw [Pool.step]
    split
    · rename_i task o next seen hthread
      exact absurd hthread (hended task o next seen)
    · rfl
  rw [step]
  split
  · rename_i task o next seen hthread
    exact absurd hthread (hended task o next seen)
  · rw [hpool]

theorem Inv.advance (h : s.Inv nodeName) (tid : ℕ) (outcome : Outcome)
    (hspared : s.Spared nodeName (.advance tid outcome)) :
    (s.step nodeName (.advance tid outcome)).Inv nodeName := by
  by_cases hruns : ∃ task o next seen, s.pool.threads tid = some ⟨task, .op o next, seen⟩
  · obtain ⟨task, o, next, seen, hthread⟩ := hruns
    have hpool : s.pool.step NodeTask.code (.advance tid outcome) = _ :=
      Pool.step_advance hthread outcome
    have hmarked : ∀ tid' ∈ s.marked, tid' ∈ (s.step nodeName (.advance tid outcome)).marked := by
      intro tid' htid
      rw [step_advance hthread]
      dsimp only
      split_ifs
      · exact List.mem_cons_of_mem _ htid
      · exact htid
    refine ⟨?_, ?_, ?_, ?_, ?_, fun hguarded => ?_⟩
    · rw [pool_step]
      exact h.disciplined.step NodeTask.code_meets _
    · rw [pool_step]
      exact fun k node hlookup => h.registered_step hlookup
    · rw [pool_step]
      exact fun tid' th k node hth hnode => h.seen_step hth hnode
    · rw [pool_step, hpool]
      intro tid' th hth hcordons
      by_cases htid : tid' = tid
      · subst htid
        simp only [Function.update_self, Option.some_inj] at hth
        subst hth
        rcases h.waits tid' _ hthread hcordons with hmem | hwaits
        · exact Or.inl (hmarked tid' hmem)
        · rcases hwaits (o.answer s.pool.store outcome) with hputs | hnext
          · refine Or.inl ?_
            rw [step_advance hthread]
            dsimp only at hcordons ⊢
            rw [hcordons, hputs]
            exact List.mem_cons_self
          · exact Or.inr hnext
      · simp only [Function.update_of_ne htid] at hth
        exact (h.waits tid' th hth hcordons).imp_left (hmarked tid')
    · rw [pool_step]
      intro tid' htid
      rw [step_advance hthread] at htid
      dsimp only at htid
      split_ifs at htid
      · rcases List.mem_cons.mp htid with rfl | hmem
        · exact Pool.threads_step hthread
        · obtain ⟨th, hth⟩ := h.begun tid' hmem
          exact Pool.threads_step hth
      · obtain ⟨th, hth⟩ := h.begun tid' htid
        exact Pool.threads_step hth
    · rw [pool_step, hpool]
      rcases h.guarded_cases hthread hguarded with hbefore | ⟨hcordons, hputs⟩
      · exact h.cordoned_of_guarded hthread hspared hbefore
      · exact h.cordoned_of_puts hthread hcordons hputs
  · rw [step_ended outcome fun task o next seen hthread => hruns ⟨task, o, next, seen, hthread⟩]
    exact h

theorem inv_start {store : Registry} (h : Registered store) : (start store).Inv nodeName where
  disciplined := Pool.disciplined_idle _ _ store
  registered k node hlookup := h _ (KeyValue.lookup_eq_some.mp hlookup) node rfl
  seen tid th k node hth := nomatch hth
  waits tid th hth := nomatch hth
  begun tid htid := nomatch htid
  cordoned hguarded := by
    rcases hguarded with hheld | ⟨tid, htid, -⟩
    · exact nomatch hheld
    · exact nomatch htid

end Cordoning

open Cordoning in
/-- **A cordon is kept.**  If nodes are registered under their names, then in every run in which
each put of the node, while its cordon is held or a drain of it is under way, leaves it
cordoned, the stored node is cordoned from a success of a cordon or a drain until the next
uncordon begins. -/
theorem cordon_kept (nodeName : String) (store : Registry) (hstore : Registered store)
    (steps : List (PoolStep NodeTask))
    (h : Admitted (step nodeName) (fun s => s.Spared nodeName) (start store) steps) :
    Along (step nodeName) (fun s => s.Kept nodeName) (start store) steps := by
  refine (along_of_admitted (fun s => s.Inv nodeName) (fun s a ha hs => ?_) (inv_start hstore)
    h).mono fun s hs hheld => hs.cordoned (Or.inl hheld)
  cases a with
  | spawn tid task => exact hs.spawn tid task
  | advance tid outcome => exact hs.advance tid outcome ha

/-! ## A heartbeat after a cordon, and one around it -/

/-- A node. -/
def worker : Node where
  id := "n1"
  name := "worker"
  address := "10.0.0.1"
  agentApiPort := 10250
  status := .ready
  registeredAt := 0
  lastHeartbeat := 0
  labels := []
  taints := []
  capacity := ⟨0, 0⟩
  allocated := ⟨0, 0⟩
  unschedulable := false
  wgPublicKey := none
  wgEndpoint := none

/-- A store with one node. -/
def workerStore : Registry := KeyValue.insert ∅ (nodeKey "worker") (.node worker)

open Cordoning in
/-- A heartbeat and a drain after a cordon. -/
theorem cordon_kept_heartbeat_after :
    Along (step "worker") (fun s => s.Kept "worker") (start workerStore)
      [.spawn 0 (.cordon "worker"), .advance 0 .ok, .advance 0 .ok,
       .spawn 1 (.heartbeat "worker" 5), .advance 1 .ok, .advance 1 .ok,
       .spawn 2 (.drain "worker"), .advance 2 .ok, .advance 2 .ok, .advance 2 .ok] :=
  cordon_kept "worker" workerStore (by unfold Registered; decide) _ (by decide)

/-- A heartbeat lists the node, a cordon runs through, and the heartbeat puts the node back. -/
def heartbeatAround : List (PoolStep NodeTask) :=
  [.spawn 0 (.heartbeat "worker" 5), .advance 0 .ok,
   .spawn 1 (.cordon "worker"), .advance 1 .ok, .advance 1 .ok, .advance 0 .ok]

open Cordoning in
/-- The cordon has been answered with success, and the node is schedulable. -/
theorem cordon_kept_fails_heartbeat_around :
    ¬Along (step "worker") (fun s => s.Kept "worker") (start workerStore) heartbeatAround := by
  intro h
  have hkept := h heartbeatAround (List.prefix_refl _)
  obtain ⟨node, hlookup, hcordoned⟩ := hkept (by decide)
  have hstored : (run (step "worker") (start workerStore) heartbeatAround).pool.store.lookup
      (nodeKey "worker") = some (.node { worker with lastHeartbeat := 5 }) := by
    decide
  obtain rfl := Object.node.inj (Option.some_inj.mp (hstored.symm.trans hlookup))
  exact absurd hcordoned (by decide)

end K3rs
