import K3rs.Vpc.Connections

/-!
# Repeated requests for an address

The agent asks for the address of a pod up to five times.  An attempt that fails may still have been
handled: the connection can break when the daemon has already given out an address and written it to
its store.  The next attempt gets the same address, because the daemon gives a pod what it already
holds.

`allocate_retries`: however the attempts break and whatever other connections do in between, every
attempt that the daemon answered with an address was answered with the same one, and it is what the
pod holds in the end.
-/

namespace K3rs

open Json Lines Net

/-! ## The client's methods -/

namespace VpcClient

section Methods

variable (debug : VpcResponse → String)

/-- What a method makes of the outcome of its request; `pick` is the response it expects. -/
def answer {α : Type} (method variant : String) (pick : VpcResponse → Option α) :
    Except String VpcResponse → Except String α
  | .error e => .error e
  | .ok (.error code message) =>
      .error ("VPC " ++ method ++ " error [" ++ code ++ "]: " ++ message)
  | .ok response =>
      match pick response with
      | some a => .ok a
      | none => .error ("Unexpected VPC response to " ++ variant ++ ": " ++ debug response)

/-- An address, with the id and the CIDR of its VPC. -/
def pickAllocated : VpcResponse → Option (String × String × UInt16 × String)
  | .allocated guestIpv4 ghostIpv6 vpcId vpcCidr => some (guestIpv4, ghostIpv6, vpcId, vpcCidr)
  | _ => none

/-- The loop of `allocate`, over the outcomes of its attempts. -/
def allocateLoop (lastErr : Option String) :
    List (Except String VpcResponse) → Except String (String × String × UInt16 × String)
  | [] => .error (lastErr.getD "VPC allocate failed after 5 retries")
  | .error e :: rest => allocateLoop (some e) rest
  | .ok response :: _ => answer debug "allocate" "Allocate" pickAllocated (.ok response)

/-- `allocate`; nothing is sent if there is no socket. -/
def allocate (socketPath : String) (socketExists : Bool)
    (attempts : List (Except String VpcResponse)) : Except String (String × String × UInt16 × String) :=
  if socketExists = false then .error ("VPC daemon socket not found: " ++ socketPath)
  else allocateLoop debug none (attempts.take 5)

/-- `release`. -/
def release : Except String VpcResponse → Except String Unit :=
  answer debug "release" "Release" fun
    | .released => some ()
    | _ => none

/-- `list_vpcs`. -/
def listVpcs : Except String VpcResponse → Except String (List VpcInfo) :=
  answer debug "list_vpcs" "ListVpcs" fun
    | .vpcList vpcs => some vpcs
    | _ => none

/-- `get_routes`. -/
def getRoutes : Except String VpcResponse → Except String (List RouteEntry) :=
  answer debug "get_routes" "GetRoutes" fun
    | .routes entries => some entries
    | _ => none

/-- `check_reachability`. -/
def checkReachability : Except String VpcResponse → Except String Bool :=
  answer debug "check_reachability" "CheckReachability" fun
    | .reachable reachable => some reachable
    | _ => none

/-- The response to `attach_netkit`, `detach_netkit`, `attach_tap` and `detach_tap`. -/
def pickOk : VpcResponse → Option Unit
  | .ok => some ()
  | _ => none

/-- `attach_netkit`. -/
def attachNetkit : Except String VpcResponse → Except String Unit :=
  answer debug "attach_netkit" "AttachNetkit" pickOk

/-- `detach_netkit`. -/
def detachNetkit : Except String VpcResponse → Except String Unit :=
  answer debug "detach_netkit" "DetachNetkit" pickOk

/-- `attach_tap`. -/
def attachTap : Except String VpcResponse → Except String Unit :=
  answer debug "attach_tap" "AttachTap" pickOk

/-- `detach_tap`. -/
def detachTap : Except String VpcResponse → Except String Unit :=
  answer debug "detach_tap" "DetachTap" pickOk

/-- `get_wg_public_key`. -/
def getWgPublicKey : Except String VpcResponse → Except String (Option String × Option UInt16) :=
  answer debug "get_wg_public_key" "GetWgPublicKey" fun
    | .wgPublicKey publicKey listenPort => some (publicKey, listenPort)
    | _ => none

/-- `ping`. -/
def ping : Except String VpcResponse → Except String Unit :=
  answer debug "ping" "Ping" fun
    | .pong => some ()
    | _ => none

variable {debug}

/-- An address comes from an attempt that was answered with it. -/
theorem mem_of_allocateLoop {lastErr : Option String} {attempts : List (Except String VpcResponse)}
    {guestIpv4 ghostIpv6 vpcCidr : String} {vpcId : UInt16}
    (h : allocateLoop debug lastErr attempts = .ok (guestIpv4, ghostIpv6, vpcId, vpcCidr)) :
    .ok (.allocated guestIpv4 ghostIpv6 vpcId vpcCidr) ∈ attempts := by
  induction attempts generalizing lastErr with
  | nil => cases h
  | cons attempt rest ih =>
      cases attempt with
      | error e => exact List.mem_cons_of_mem _ (ih h)
      | ok response =>
          rw [allocateLoop] at h
          cases response with
          | allocated g6 h6 id cidr =>
              cases h
              exact List.mem_cons_self
          | _ => cases h

end Methods

end VpcClient

/-! ## What a pod holds -/

namespace GhostAllocator

/-- What a pod holds in a VPC. -/
def lease (a : GhostAllocator) (podId vpcName : String) : Option AllocateResult :=
  (a.pools.lookup vpcName).bind fun pool =>
    (pool.allocations.lookup podId).map fun alloc =>
      ⟨alloc.guestIpv4, alloc.ghostIpv6, pool.vpcId, pool.cidr⟩

variable {a : GhostAllocator} {podId vpcName : String} {r : AllocateResult}

/-- A pool that keeps its id and its CIDR and the allocation of the pod. -/
theorem lease_insert {name : String} {pool : VpcPool} (hpool : a.pools.lookup name = some pool)
    (pool' : VpcPool) (hid : pool'.vpcId = pool.vpcId) (hcidr : pool'.cidr = pool.cidr)
    (hkeep : vpcName = name → pool'.allocations.lookup podId = pool.allocations.lookup podId) :
    lease { a with pools := a.pools.insert name pool' } podId vpcName = a.lease podId vpcName := by
  show ((a.pools.insert name pool').lookup vpcName).bind _ = (a.pools.lookup vpcName).bind _
  by_cases h : vpcName = name
  · rw [h, AList.lookup_insert, hpool, Option.bind_some, Option.bind_some, hkeep h, hid, hcidr]
  · rw [AList.lookup_insert_ne h]

/-- **`allocate` takes nothing away.** -/
theorem lease_allocate (store : VpcStore) (io : Except String Unit) (podId' vpcName' : String)
    (h : a.lease podId vpcName = some r) :
    (a.allocate store io podId' vpcName').2.1.lease podId vpcName = some r := by
  rcases a.allocate_cases store io podId' vpcName' with
    ⟨e, heq⟩ | ⟨pool, hpool, ⟨existing, hpod, heq⟩ | ⟨offset, hpod, -, -, heq⟩⟩
  · rwa [heq]
  · rwa [heq]
  · rw [heq]
    by_cases hpodId : vpcName = vpcName' ∧ podId = podId'
    · obtain ⟨rfl, rfl⟩ := hpodId
      unfold lease at h
      rw [hpool, Option.bind_some, hpod] at h
      cases h
    · have hkeep : vpcName = vpcName' →
          (pool.assign podId' offset (a.allocationAt pool offset)).allocations.lookup podId =
            pool.allocations.lookup podId :=
        fun hname => AList.lookup_insert_ne fun hpod => hpodId ⟨hname, hpod⟩
      exact (lease_insert hpool (pool.assign podId' offset (a.allocationAt pool offset)) rfl rfl
        hkeep).trans h

/-- **What `allocate` answers** is what the pod holds then. -/
theorem lease_of_allocate (store : VpcStore) (io : Except String Unit)
    (h : (a.allocate store io podId vpcName).1 = .ok r) :
    (a.allocate store io podId vpcName).2.1.lease podId vpcName = some r := by
  rcases a.allocate_cases store io podId vpcName with
    ⟨e, heq⟩ | ⟨pool, hpool, ⟨existing, hpod, heq⟩ | ⟨offset, hpod, -, -, heq⟩⟩
  · rw [heq] at h
    cases h
  · rw [heq] at h ⊢
    cases h
    show (a.pools.lookup vpcName).bind _ = _
    rw [hpool, Option.bind_some, hpod]
    rfl
  · rw [heq] at h ⊢
    cases h
    show ((a.pools.insert vpcName _).lookup vpcName).bind _ = _
    rw [AList.lookup_insert, Option.bind_some]
    show ((pool.allocations.insert podId _).lookup podId).map _ = _
    rw [AList.lookup_insert]
    rfl

/-- `release` takes away nothing else. -/
theorem lease_release (store : VpcStore) (io : Except String Unit) {podId' vpcName' : String}
    (hother : ¬ (vpcName = vpcName' ∧ podId = podId')) :
    (a.release store io podId' vpcName').2.1.lease podId vpcName = a.lease podId vpcName := by
  rcases a.release_cases store io podId' vpcName' with ⟨e, heq⟩ | ⟨pool, alloc, hpool, -, heq⟩
  · rw [heq]
  · rw [heq]
    have hkeep : vpcName = vpcName' →
        (pool.unassign podId').allocations.lookup podId = pool.allocations.lookup podId :=
      fun hname => AList.lookup_erase_ne fun hpod => hother ⟨hname, hpod⟩
    exact lease_insert hpool (pool.unassign podId') rfl rfl hkeep

end GhostAllocator

namespace VpcDaemon

variable {d : VpcDaemon} {podId vpcName : String} {r : AllocateResult}
  {wgManager : Option (String × UInt16)} {reader : Reader}

/-- The allocator changes for two kinds of request only. -/
theorem dispatch_allocator (d : VpcDaemon) (answers : Answers) (request : Protocol.VpcRequest) :
    (d.dispatch answers request).2.allocator =
      match request with
      | .allocate podId vpcName => (d.allocator.allocate d.store answers.io podId vpcName).2.1
      | .release podId vpcName => (d.allocator.release d.store answers.io podId vpcName).2.1
      | _ => d.allocator := by
  cases request with
  | allocate podId vpcName =>
      unfold dispatch
      dsimp only
      split
      all_goals
        rename_i hcall
        rw [hcall]
  | release podId vpcName =>
      unfold dispatch
      dsimp only
      split
      all_goals
        rename_i hcall
        rw [hcall]
  | checkReachability srcVpc dstVpc =>
      unfold dispatch
      dsimp only
      split_ifs
      · rfl
      · split
        all_goals rfl
  | attachNetkit nkName guestIpv4 ghostIpv6 vpcId vpcCidr containerPid =>
      unfold dispatch
      dsimp only
      split
      all_goals rfl
  | attachTap tapName guestIpv4 ghostIpv6 vpcId vpcCidr =>
      unfold dispatch
      dsimp only
      split
      all_goals rfl
  | detachNetkit nkName => rfl
  | detachTap tapName => rfl
  | ping => rfl

/-- A request that only looks something up changes nothing. -/
theorem dispatchRequest_snd (d : VpcDaemon) (answers : Answers) {request : Protocol.Request}
    (h : ∀ call, request ≠ .call call) : (d.dispatchRequest wgManager answers request).2 = d := by
  cases request with
  | call call => exact absurd rfl (h call)
  | query podId =>
      simp only [dispatchRequest]
      split
      all_goals rfl
  | getRoutes vpcId => rfl
  | listVpcs =>
      simp only [dispatchRequest]
      split
      all_goals rfl
  | getWgPublicKey => rfl

/-- **What a pod holds stays**, until its release is asked for. -/
theorem lease_dispatchRequest (answers : Answers) {request : Protocol.Request}
    (hrequest : request ≠ .call (.release podId vpcName))
    (h : d.allocator.lease podId vpcName = some r) :
    (d.dispatchRequest wgManager answers request).2.allocator.lease podId vpcName = some r := by
  by_cases hcall : ∃ call, request = .call call
  · obtain ⟨call, rfl⟩ := hcall
    show (d.dispatch answers call).2.allocator.lease podId vpcName = some r
    rw [dispatch_allocator]
    split
    · rename_i podId' vpcName'
      exact d.allocator.lease_allocate d.store answers.io podId' vpcName' h
    · rename_i podId' vpcName'
      have hother : ¬ (vpcName = vpcName' ∧ podId = podId') := by
        rintro ⟨rfl, rfl⟩
        exact hrequest rfl
      exact (d.allocator.lease_release d.store answers.io hother).trans h
    · exact h
  · rw [d.dispatchRequest_snd answers fun call heq => hcall ⟨call, heq⟩]
    exact h

/-- A line does what its request does, or nothing. -/
theorem lease_respond (answers : Answers) {line : List Char}
    (hline : (reader.fromStr line).bind Protocol.Request.ofJson ≠
      some (.call (.release podId vpcName)))
    (h : d.allocator.lease podId vpcName = some r) :
    (d.respond reader wgManager answers line).2.allocator.lease podId vpcName = some r := by
  unfold respond
  cases hrequest : (reader.fromStr line).bind Protocol.Request.ofJson with
  | none => exact h
  | some request =>
      refine lease_dispatchRequest answers (fun heq => hline ?_) h
      rw [hrequest, heq]

/-- The answer that gives a pod what it holds. -/
def allocated (r : AllocateResult) : VpcClient.VpcResponse :=
  .allocated (ipv4ToString r.guestIpv4) (ipv6ToString r.ghostIpv6) r.vpcId r.vpcCidr

/-- An answer to `allocate` says what the pod holds now, or is an error. -/
theorem seen_allocate (d : VpcDaemon) (wgManager : Option (String × UInt16))
    (podId vpcName : String) (answers : Answers) :
    (∃ r, (d.dispatchRequest wgManager answers (.call (.allocate podId vpcName))).1.seen =
        some (allocated r) ∧
      (d.dispatchRequest wgManager answers (.call (.allocate podId vpcName))).2.allocator.lease
        podId vpcName = some r) ∨
      ∃ e, (d.dispatchRequest wgManager answers (.call (.allocate podId vpcName))).1.seen =
        some (.error "allocate_error" e) := by
  have hlease : ∀ r, (d.allocator.allocate d.store answers.io podId vpcName).1 = .ok r →
      (d.allocator.allocate d.store answers.io podId vpcName).2.1.lease podId vpcName = some r :=
    fun r => d.allocator.lease_of_allocate d.store answers.io
  show (∃ r, (Protocol.Response.answer (d.dispatch answers (.allocate podId vpcName)).1).seen = _ ∧
    (d.dispatch answers (.allocate podId vpcName)).2.allocator.lease podId vpcName = _) ∨ _
  rw [dispatch_allocator]
  simp only [dispatchRequest, dispatch]
  split
  · rename_i r allocator store hcall
    rw [hcall] at hlease ⊢
    exact Or.inl ⟨r, rfl, hlease r rfl⟩
  · rename_i e allocator store hcall
    exact Or.inr ⟨e, rfl⟩

end VpcDaemon

/-! ## Histories -/

section Histories

variable {κ : Type} {reader : Reader} {wgManager : Option (String × UInt16)}
  {podId vpcName : String} {r : AllocateResult}

/-- What was asked for. -/
def Moment.asked (reader : Reader) : Moment κ → Option Protocol.Request
  | .served e => (reader.fromStr e.line).bind Protocol.Request.ofJson
  | .background _ => none

/-- A change from elsewhere that takes no lease away. -/
def KeepsLease (podId vpcName : String) (change : VpcDaemon → VpcDaemon) : Prop :=
  ∀ d r, d.allocator.lease podId vpcName = some r →
    (change d).allocator.lease podId vpcName = some r

/-- What leaves a lease alone: a line that does not ask for its release, or a change that keeps
it. -/
def Moment.Keeps (reader : Reader) (podId vpcName : String) : Moment κ → Prop
  | .served e => (reader.fromStr e.line).bind Protocol.Request.ofJson ≠
      some (.call (.release podId vpcName))
  | .background change => KeepsLease podId vpcName change

theorem lease_sequential {d d' : VpcDaemon} {log : List (Moment κ)}
    (hlog : Sequential reader wgManager d log d') (hkeeps : ∀ m ∈ log, m.Keeps reader podId vpcName)
    (h : d.allocator.lease podId vpcName = some r) :
    d'.allocator.lease podId vpcName = some r := by
  induction log generalizing d with
  | nil =>
      rw [show d' = d from hlog]
      exact h
  | cons m log ih =>
      obtain ⟨hm, hrest⟩ := List.forall_mem_cons.mp hkeeps
      cases m with
      | served e => exact ih hlog.2 hrest (VpcDaemon.lease_respond e.answers hm h)
      | background change => exact ih hlog hrest (hm d r h)

/-- A history leads to one state. -/
theorem sequential_unique {d d₁ d₂ : VpcDaemon} {log : List (Moment κ)}
    (h₁ : Sequential reader wgManager d log d₁) (h₂ : Sequential reader wgManager d log d₂) :
    d₁ = d₂ := by
  induction log generalizing d with
  | nil => exact Eq.trans h₁ (Eq.symm h₂)
  | cons m log ih =>
      cases m with
      | served e => exact ih h₁.2 h₂.2
      | background change => exact ih h₁ h₂

/-- An attempt that was handled was answered with what the pod holds in the end, or with an
error. -/
theorem lease_of_serves {d₀ d : VpcDaemon} {log : List (Moment κ)} {e : ServedLine κ}
    (hlog : Sequential reader wgManager d₀ log d) (hkeeps : ∀ m ∈ log, m.Keeps reader podId vpcName)
    (hserves : e.Serves reader wgManager d₀ log (.allocate podId vpcName)) :
    (∃ r, e.response.seen = some (VpcDaemon.allocated r) ∧
        d.allocator.lease podId vpcName = some r) ∨
      ∃ code message, e.response.seen = some (.error code message) := by
  obtain ⟨before, after, mid, rfl, hbefore, hrespond, hresponse⟩ := hserves
  obtain ⟨mid', hbefore', hrest⟩ := sequential_append.mp hlog
  obtain rfl := sequential_unique hbefore hbefore'
  have hafter : ∀ m ∈ after, m.Keeps reader podId vpcName :=
    fun m hm => hkeeps m (List.mem_append_right _ (List.mem_cons_of_mem _ hm))
  rw [hresponse, hrespond]
  split_ifs with hline
  · rcases mid.seen_allocate wgManager podId vpcName e.answers with
      ⟨r, hseen, hlease⟩ | ⟨message, hseen⟩
    · refine Or.inl ⟨r, hseen, lease_sequential hrest.2 hafter ?_⟩
      rw [hrespond, if_pos hline]
      exact hlease
    · exact Or.inr ⟨_, message, hseen⟩
  · exact Or.inr ⟨_, _, rfl⟩

/-- What an event adds to the history. -/
theorem log_step [DecidableEq κ] (s : SocketServer κ) (event : SocketEvent κ) :
    (s.step reader wgManager event).log = s.log ∨
      (∃ e, (s.step reader wgManager event).log = s.log ++ [.served e]) ∨
      ∃ change, event = .background change ∧
        (s.step reader wgManager event).log = s.log ++ [.background change] := by
  cases event with
  | receive k bytes =>
      simp only [SocketServer.step]
      split_ifs
      all_goals exact Or.inl rfl
  | shutdown k => exact Or.inl rfl
  | reset k =>
      simp only [SocketServer.step]
      split_ifs
      all_goals exact Or.inl rfl
  | handle k answers sent =>
      simp only [SocketServer.step, SocketServer.handle]
      split_ifs
      · split
        · exact Or.inl rfl
        · exact Or.inl rfl
        · split
          · exact Or.inl rfl
          · split_ifs
            · exact Or.inl rfl
            · exact Or.inr (Or.inl ⟨_, rfl⟩)
      · exact Or.inl rfl
  | background change => exact Or.inr (Or.inr ⟨change, rfl, rfl⟩)

theorem background_mem_events [DecidableEq κ] {d₀ : VpcDaemon} (events : List (SocketEvent κ))
    {change : VpcDaemon → VpcDaemon} (h : .background change ∈ (Transition.run
      (SocketServer.step reader wgManager) (SocketServer.new d₀) events).log) :
    .background change ∈ events := by
  induction events using List.reverseRecOn with
  | nil => cases h
  | append_singleton events event ih =>
      rw [Transition.run_append] at h
      set s := Transition.run (SocketServer.step reader wgManager) (SocketServer.new d₀) events
      change _ ∈ (s.step reader wgManager event).log at h
      rcases log_step s event with
        hlog | ⟨e, hlog⟩ | ⟨change', rfl, hlog⟩
      · rw [hlog] at h
        exact List.mem_append_left _ (ih h)
      · rw [hlog, List.mem_append, List.mem_singleton] at h
        exact List.mem_append_left _ (ih (h.resolve_right nofun))
      · rw [hlog, List.mem_append, List.mem_singleton] at h
        rcases h with h | h
        · exact List.mem_append_left _ (ih h)
        · cases h
          exact List.mem_append_right _ (List.mem_singleton_self _)

end Histories

/-- **Retries hand out one address.**  The attempts of a call of `allocate` run on connections of
their own, among any others, and any of them may break at any point.  As long as nobody releases the
pod's address, every attempt that was answered with an address was answered with the one that the
pod holds in the end, and this is what `allocate` returns. -/
theorem allocate_retries {κ : Type} [DecidableEq κ] (reader : Reader)
    (wgManager : Option (String × UInt16)) (d₀ : VpcDaemon) (events : List (SocketEvent κ))
    (podId vpcName : String) (attempts : List κ)
    (outcomes : List (Except String VpcClient.VpcResponse))
    (debug : VpcClient.VpcResponse → String) (socketPath : String)
    {result : String × String × UInt16 × String}
    (hattempts : ∀ k ∈ attempts, ((Transition.run (SocketServer.step reader wgManager)
      (SocketServer.new d₀) events).conns k).received <+:
        messageLine (VpcClient.VpcRequest.allocate podId vpcName).toJson)
    (hrelease : .call (.release podId vpcName) ∉ (Transition.run
      (SocketServer.step reader wgManager) (SocketServer.new d₀) events).log.filterMap
        (Moment.asked reader))
    (hbackground : ∀ change, .background change ∈ events → KeepsLease podId vpcName change)
    (houtcomes : ∀ response, .ok response ∈ outcomes → ∃ k ∈ attempts, ∃ bytes,
      bytes <+: ((Transition.run (SocketServer.step reader wgManager) (SocketServer.new d₀)
        events).conns k).outbox ∧ VpcClient.request reader bytes = some response)
    (hok : VpcClient.allocate debug socketPath true outcomes = .ok result) :
    let s := Transition.run (SocketServer.step reader wgManager) (SocketServer.new d₀) events
    ∃ r, s.daemon.allocator.lease podId vpcName = some r ∧
      result = (ipv4ToString r.guestIpv4, ipv6ToString r.ghostIpv6, r.vpcId, r.vpcCidr) ∧
      ∀ k ∈ attempts, ∀ e ∈ servedOn k s.log,
        e.response.seen = some (VpcDaemon.allocated r) ∨
          ∃ code message, e.response.seen = some (.error code message) := by
  intro s
  have hok' : ServerOk reader wgManager d₀ s := ServerOk.run d₀ events
  have hkeeps : ∀ m ∈ s.log, m.Keeps reader podId vpcName := by
    intro m hm
    cases m with
    | served e => exact fun heq => hrelease (List.mem_filterMap.mpr ⟨_, hm, heq⟩)
    | background change => exact hbackground change (background_mem_events events hm)
  obtain ⟨guestIpv4, ghostIpv6, vpcId, vpcCidr⟩ := result
  have hmem : .ok (.allocated guestIpv4 ghostIpv6 vpcId vpcCidr) ∈ outcomes :=
    List.mem_of_mem_take (VpcClient.mem_of_allocateLoop hok)
  have hserved : ∀ k ∈ attempts, ∀ e ∈ servedOn k s.log,
      (∃ r, e.response.seen = some (VpcDaemon.allocated r) ∧
          s.daemon.allocator.lease podId vpcName = some r) ∨
        ∃ code message, e.response.seen = some (.error code message) := by
    intro k hk e he
    rcases hok'.call (hattempts k hk) with ⟨hnone, -⟩ | ⟨e', he', hserves, -⟩
    · rw [hnone] at he
      cases he
    · rw [he', List.mem_singleton] at he
      subst he
      exact lease_of_serves hok'.sequential hkeeps hserves
  obtain ⟨k, hk, bytes, hbytes, hrequest⟩ := houtcomes _ hmem
  have hsome : ∃ e ∈ servedOn k s.log,
      e.response.seen = some (.allocated guestIpv4 ghostIpv6 vpcId vpcCidr) := by
    rcases hok'.call (hattempts k hk) with ⟨-, hnone⟩ | ⟨e, he, -, -, hwritten⟩
    · rw [hnone, List.prefix_nil] at hbytes
      rw [hbytes, VpcClient.request_nil] at hrequest
      cases hrequest
    · refine ⟨e, by rw [he]; exact List.mem_singleton_self e, ?_⟩
      rcases VpcClient.request_of_prefix reader e.response (hbytes.trans hwritten) with
        hread | ⟨hread, -⟩
      · rw [← hread, hrequest]
      · rw [hread] at hrequest
        cases hrequest
  obtain ⟨e, he, hseen⟩ := hsome
  rcases hserved k hk e he with ⟨r, hr, hlease⟩ | ⟨code, message, herror⟩
  · rw [hseen] at hr
    cases hr
    refine ⟨r, hlease, rfl, fun k' hk' e' he' => (hserved k' hk' e' he').imp_left ?_⟩
    rintro ⟨r', hr', hlease'⟩
    rw [hlease, Option.some_inj] at hlease'
    rw [hr', hlease']
  · rw [hseen] at herror
    cases herror

/-- A daemon with one VPC. -/
def blueDaemon : VpcDaemon :=
  { freshDaemon with
    allocator := freshDaemon.allocator.syncVpcs [⟨"blue", 7, "10.0.0.0/24", .active⟩] }

/-- The first attempt is handled, but nothing of the response gets through. -/
def retryEvents : List (SocketEvent Bool) :=
  let line := messageLine (VpcClient.VpcRequest.allocate "web" "blue").toJson
  [.receive false line, .handle false {} (some 0), .receive true line, .handle true {} none]

theorem allocate_retries_blue :
    let reader := Reader.compact fun _ => "expected value"
    let s := Transition.run (SocketServer.step reader none) (SocketServer.new blueDaemon) retryEvents
    (s.conns false).outbox = [] ∧
      ∃ r, s.daemon.allocator.lease "web" "blue" = some r ∧
        ("10.0.0.1", "::1000:0:0:7:a00:1", 7, "10.0.0.0/24") =
          (ipv4ToString r.guestIpv4, ipv6ToString r.ghostIpv6, r.vpcId, r.vpcCidr) ∧
        ∀ k ∈ [false, true], ∀ e ∈ servedOn k s.log,
          e.response.seen = some (VpcDaemon.allocated r) ∨
            ∃ code message, e.response.seen = some (.error code message) := by
  intro reader s
  have hread : VpcClient.request reader (s.conns true).outbox =
      some (.allocated "10.0.0.1" "::1000:0:0:7:a00:1" 7 "10.0.0.0/24") := by decide +kernel
  have hline : ∀ k ∈ [false, true], (s.conns k).received <+:
      messageLine (VpcClient.VpcRequest.allocate "web" "blue").toJson := by
    intro k hk
    cases k
    all_goals exact List.prefix_rfl
  have hrelease : Protocol.Request.call (.release "web" "blue") ∉
      s.log.filterMap (Moment.asked reader) := by decide +kernel
  have hbackground : ∀ change, .background change ∈ retryEvents →
      KeepsLease "web" "blue" change := by
    intro change h
    simp [retryEvents] at h
  refine ⟨by decide +kernel, allocate_retries reader none blueDaemon retryEvents "web" "blue"
    [false, true] [.error "broken pipe", .ok (.allocated "10.0.0.1" "::1000:0:0:7:a00:1" 7
      "10.0.0.0/24")] (fun _ => "") "vpc.sock" hline hrelease hbackground ?_ rfl⟩
  intro response hmem
  obtain rfl : response = .allocated "10.0.0.1" "::1000:0:0:7:a00:1" 7 "10.0.0.0/24" := by
    simpa using hmem
  exact ⟨true, by simp, _, List.prefix_rfl, hread⟩

end K3rs
