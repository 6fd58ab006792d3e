import K3rs.Ebpf.Isolation
import K3rs.Network.Dns
import K3rs.Vpc.Restart
import K3rs.Vpc.Socket

/-!
# Three answers to one question

Whether one VPC can reach another is decided in three places: `CheckReachability` looks at
the peerings in the store, `enforce_v6` at the pairs of ids in `PEERINGS`, and the DNS server
at its pairs of names.  All three come from the lists of the sync loop, by different ways: the
store keeps every peering it was ever given, the map is changed by what the enforcer has
recorded under the names of peerings, and the pairs of names are replaced as a whole.

`Unanimous` is when the three agree after a cycle, in terms of the state before it, and
`deciders_agree_iff` says so for every history of cycles, crashes and restarts.
-/

namespace K3rs

open Net Ebpf Crash Grants Tables

/-! ## The deciders -/

/-- `CheckReachability` answers that `b` is reachable from `a`. -/
def AnswersReachable (store : VpcStore) (a b : String) : Prop :=
  ∀ d : VpcDaemon, d.store = store →
    (d.dispatch {} (.checkReachability a b)).1 = .reachable true

/-- `enforce_v6` passes the Ghost packets from one VPC id to another. -/
def PassesGhost (maps : Maps) (src dst : UInt16) : Prop :=
  ∀ (K : Kernel) (f : Frame), IsIpv6Packet f → isGhost (ipv6Src f) = true →
    isGhost (ipv6Dst f) = true → ghostVpcId (ipv6Src f) = src → ghostVpcId (ipv6Dst f) = dst →
      enforceV6 K maps f = .ok .ok

/-- With these peerings the DNS server lets the sources in `a` resolve the services of `b`. -/
def DnsResolves (peerings : List VpcPeering) (a b : String) : Prop :=
  ∀ (dns : DnsServer) (srcIp name ip : String) (vpcId : UInt16),
    dns.vpcMembers.lookup srcIp = some a → dns.vpcRecords.lookup name = some (ip, b, vpcId) →
      ((dns.updatePeerings peerings).resolveFrom srcIp name).isSome

/-- Two listed VPCs with different names. -/
structure Listing.Pair (l : Listing) (a b : Vpc) : Prop where
  left : a ∈ l.vpcs
  right : b ∈ l.vpcs
  ne : a.name ≠ b.name

/-- The three agree on every pair of listed VPCs. -/
def DecidersAgree (s : Daemon × Disk) (l : Listing) : Prop :=
  ∀ a b, l.Pair a b →
    (AnswersReachable s.2.store a.name b.name ↔ PassesGhost s.2.pinned.maps a.vpcId b.vpcId) ∧
      (PassesGhost s.2.pinned.maps a.vpcId b.vpcId ↔ DnsResolves l.peerings a.name b.name)

/-! ## What they decide by -/

/-- A listed peering connects the two names. -/
def Listing.Peered (l : Listing) (a b : String) : Prop := ∃ p ∈ l.peerings, p.Connects a b

theorem answersReachable_iff {store : VpcStore} {a b : String} (hne : a ≠ b) :
    AnswersReachable store a b ↔ ∃ p ∈ store.loadPeerings, p.Connects a b := by
  have hany : store.loadPeerings.any (·.reaches a b) = true ↔
      ∃ p ∈ store.loadPeerings, p.Connects a b := by
    rw [List.any_eq_true]
    exact exists_congr fun p => and_congr_right fun _ => VpcPeering.reaches_iff
  rw [← hany]
  constructor
  · intro h
    have hanswer := h ⟨.new 0 0, store, .new 0 0, fun _ => none⟩ rfl
    unfold VpcDaemon.dispatch at hanswer
    simp only [if_neg hne] at hanswer
    injection hanswer
  · rintro h d rfl
    unfold VpcDaemon.dispatch
    simp only [if_neg hne, h]

theorem dnsResolves_iff {peerings : List VpcPeering} {a b : String} (hne : a ≠ b) :
    DnsResolves peerings a b ↔ ∃ p ∈ peerings, p.Connects a b := by
  constructor
  · intro h
    -- one source and one service
    let dns : DnsServer := ⟨∅, AList.insert "svc" ("10.96.0.1", b, 1) ∅,
      AList.insert "10.0.0.1" a ∅, ∅⟩
    have hsrc : dns.vpcMembers.lookup "10.0.0.1" = some a := AList.lookup_insert _
    have hsvc : dns.vpcRecords.lookup "svc" = some ("10.96.0.1", b, 1) := AList.lookup_insert _
    have hseen := h dns "10.0.0.1" "svc" "10.96.0.1" 1 hsrc hsvc
    rw [DnsServer.resolveFrom_isSome_iff (d := dns.updatePeerings peerings) hsrc hsvc hne] at hseen
    exact DnsServer.mem_updatePeerings.mp hseen
  · intro h dns srcIp name ip vpcId hsrc hsvc
    rw [DnsServer.resolveFrom_isSome_iff (d := dns.updatePeerings peerings) hsrc hsvc hne]
    exact DnsServer.mem_updatePeerings.mpr h

theorem isIpv6Packet_bareIpv6 (src dst : Ipv6Addr) :
    IsIpv6Packet (bareIpv6 src dst) ∧ ipv6Src (bareIpv6 src dst) = src ∧
      ipv6Dst (bareIpv6 src dst) = dst := by
  refine ⟨⟨?_, ?_⟩, ?_, ?_⟩
  · simp only [bareIpv6, List.length_append, List.length_replicate, List.length_cons,
      List.length_nil, src.length_octets, dst.length_octets]
    norm_num
  · have hfirst : (bareIpv6 src dst).getD 12 0 = 0x86 := rfl
    have hsecond : (bareIpv6 src dst).getD 13 0 = 0xDD := rfl
    rw [etherType, hfirst, hsecond]
    decide
  · have hsplit : bareIpv6 src dst =
        (List.replicate 12 0 ++ [0x86, 0xDD, 0x60, 0, 0, 0, 0, 0, 59, 64]) ++
          (src.octets ++ dst.octets) := by
      rw [bareIpv6, List.append_assoc]
    rw [hsplit]
    exact addrAt_append _ src dst.octets
  · have hsplit : bareIpv6 src dst =
        (List.replicate 12 0 ++ [0x86, 0xDD, 0x60, 0, 0, 0, 0, 0, 59, 64] ++ src.octets) ++
          (dst.octets ++ []) := by
      rw [bareIpv6, List.append_nil, List.append_assoc, List.append_assoc]
    rw [hsplit]
    have hlen : (List.replicate 12 0 ++ [0x86, 0xDD, 0x60, 0, 0, 0, 0, 0, 59, 64] ++
        src.octets : List UInt8).length = IPV6_DST_ADDR_OFF := by
      simp only [List.length_append, List.length_replicate, List.length_cons, List.length_nil,
        src.length_octets]
      rfl
    rw [ipv6Dst, ← hlen]
    exact addrAt_append _ dst []

theorem isGhost_construct (clusterId : UInt32) (vpcId : UInt16) (ip : Ipv4Addr) :
    isGhost (construct PLATFORM_PREFIX clusterId vpcId ip) = true ∧
      ghostVpcId (construct PLATFORM_PREFIX clusterId vpcId ip) = vpcId := by
  obtain ⟨hpre, hvpc⟩ := parse_fields (parse_construct PLATFORM_PREFIX clusterId vpcId ip)
  exact ⟨beq_iff_eq.mpr hpre.symm, hvpc.symm⟩

theorem passesGhost_iff {maps : Maps} {src dst : UInt16} :
    PassesGhost maps src dst ↔ vpcRule maps src dst = true := by
  constructor
  · intro h
    obtain ⟨hsrc, hsrcId⟩ := isGhost_construct 0 src ⟨0⟩
    obtain ⟨hdst, hdstId⟩ := isGhost_construct 0 dst ⟨0⟩
    obtain ⟨hpacket, hs, hd⟩ := isIpv6Packet_bareIpv6 (construct PLATFORM_PREFIX 0 src ⟨0⟩)
      (construct PLATFORM_PREFIX 0 dst ⟨0⟩)
    have hpass := h (.linux .little) _ hpacket (hs ▸ hsrc) (hd ▸ hdst) (hs ▸ hsrcId) (hd ▸ hdstId)
    rw [enforceV6_of_ipv6 _ _ hpacket, hs, hd, isolationVerdict, hdst, hsrc, mayReach, hsrcId,
      hdstId] at hpass
    by_contra hrule
    rw [Bool.not_eq_true] at hrule
    rw [hrule] at hpass
    cases hpass
  · intro h K f hpacket hsrc hdst hs hd
    rw [enforceV6_of_ipv6 K maps hpacket, isolationVerdict, hsrc, hdst, mayReach, hs, hd, h]
    rfl

/-! ## The state that a cycle leaves -/

section Store

variable {s : Daemon × Disk}

theorem store_enforce (f : Proc EbpfEnforcer Pinned MapWrite) :
    (exec Disk.write (enforce f) s).2.store = s.2.store := by
  simp only [exec, enforce, commit_pin]

/-- A cycle writes its peerings into the store and removes none. -/
theorem peerings_syncCycle (c : Cycle) :
    (exec Disk.write (syncCycle c) s).2.store.peerings =
      s.2.store.peerings.putAll c.peerings := by
  have hvpcs : ∀ s, (exec Disk.write (removeVanishedVpcs c) s).2.store = s.2.store :=
    fun s => store_enforce _
  have hvanished : ∀ s, (exec Disk.write (removeVanishedPeerings c) s).2.store = s.2.store :=
    fun s => store_enforce _
  have hactive : ∀ s, (exec Disk.write (installActivePeerings c) s).2.store = s.2.store :=
    fun s => store_enforce _
  have hmeta : ∀ s, (exec Disk.write updateMeta s).2.store.peerings = s.2.store.peerings :=
    fun _ => rfl
  have hmodify : ∀ (f : Daemon → Daemon) s,
      (exec Disk.write (modify f) s).2.store = s.2.store := fun _ _ => rfl
  have hsaved : ∀ s : Daemon × Disk, (exec Disk.write (emit [.savePeerings c.peerings])
      (exec Disk.write (emit [.saveVpcs c.vpcs]) s)).2.store.peerings =
        s.2.store.peerings.putAll c.peerings := fun _ => rfl
  rw [syncCycle, exec_block]
  simp only [List.foldl_cons, List.foldl_nil]
  rw [hmeta, hmodify, hactive, hvanished, hmodify, hvpcs, store_enforce, hmodify, hsaved]

/-- So `CheckReachability` knows the listed peerings, and those that are not listed any
more. -/
theorem answersReachable_syncCycle (c : Cycle) {a b : String} (hne : a ≠ b) :
    AnswersReachable (exec Disk.write (syncCycle c) s).2.store a b ↔
      c.Peered a b ∨ ∃ p ∈ s.2.store.loadPeerings, p.name ∉ c.peerings.map VpcPeering.name ∧
        p.Connects a b := by
  rw [answersReachable_iff hne]
  have hmem : ∀ p, p ∈ (exec Disk.write (syncCycle c) s).2.store.loadPeerings ↔
      p ∈ c.peerings ∨ p ∈ s.2.store.loadPeerings ∧ p.name ∉ c.peerings.map VpcPeering.name := by
    intro p
    rw [VpcStore.loadPeerings, peerings_syncCycle]
    exact s.2.store.peerings.mem_putAll c.peeringNames
  constructor
  · rintro ⟨p, hp, hconnects⟩
    rcases (hmem p).mp hp with hlisted | ⟨hold, hnot⟩
    · exact Or.inl ⟨p, hlisted, hconnects⟩
    · exact Or.inr ⟨p, hold, hnot, hconnects⟩
  · rintro (⟨p, hp, hconnects⟩ | ⟨p, hp, hnot, hconnects⟩)
    · exact ⟨p, (hmem p).mpr (Or.inl hp), hconnects⟩
    · exact ⟨p, (hmem p).mpr (Or.inr ⟨hp, hnot⟩), hconnects⟩

end Store

/-! ## Values of the map -/

/-- Every entry of `PEERINGS` allows. -/
def Disk.AllAllowed (disk : Disk) : Prop :=
  ∀ key value, disk.pinned.maps.peerings key = some value → value.allowed ≠ 0

/-- A write that enters no other value. -/
def Write.Allows : Write → Prop
  | .pin (.putPeering _ value) => value.allowed ≠ 0
  | _ => True

theorem Disk.AllAllowed.write {disk : Disk} (h : disk.AllAllowed) {w : Write} (hw : w.Allows) :
    (disk.write w).AllAllowed := by
  intro key value hvalue
  cases w with
  | saveVpcs vpcs => exact h key value hvalue
  | savePeerings peerings => exact h key value hvalue
  | saveMeta daemonMeta => exact h key value hvalue
  | pin write =>
      cases write with
      | putCidr vpcId cidr => exact h key value hvalue
      | deleteCidr vpcId => exact h key value hvalue
      | putPeering key' value' =>
          by_cases hkey : key = key'
          · subst hkey
            simp only [Disk.write, Pinned.write, Function.update_self, Option.some_inj] at hvalue
            exact hvalue ▸ hw
          · exact h key value ((Function.update_of_ne hkey _ _).symm.trans hvalue)
      | deletePeering key' =>
          by_cases hkey : key = key'
          · subst hkey
            simp only [Disk.write, Pinned.write, Function.update_self] at hvalue
            cases hvalue
          · exact h key value ((Function.update_of_ne hkey _ _).symm.trans hvalue)

/-- The enforcer enters `allowed: 1` only. -/
def MapWrite.Allows (w : MapWrite) : Prop := (Write.pin w).Allows

theorem emits_installPeeringRules (peering : VpcPeering) (vpcs : List Vpc) :
    Emits MapWrite.Allows
      (EbpfEnforcer.method fun e => e.installPeeringRules peering vpcs) := by
  intro e pinned w hw
  rcases installPeeringRules_cases peering vpcs with ⟨-, hinstall⟩ | ⟨keys, -, hinstall⟩
  · simp only [EbpfEnforcer.method, hinstall] at hw
    cases hw
  · simp only [EbpfEnforcer.method, hinstall] at hw
    obtain ⟨key, -, rfl⟩ := List.mem_map.mp hw
    show (1 : UInt32) ≠ 0
    decide

theorem emits_removePeeringRules (name : String) :
    Emits MapWrite.Allows (EbpfEnforcer.method fun e => e.removePeeringRules name) := by
  intro e pinned w hw
  simp only [EbpfEnforcer.method, EbpfEnforcer.removePeeringRules] at hw
  cases hkeys : e.peeringToKeys name with
  | none =>
      rw [hkeys] at hw
      cases hw
  | some keys =>
      rw [hkeys] at hw
      obtain ⟨key, -, rfl⟩ := List.mem_map.mp hw
      trivial

theorem emits_removeVpc (vpcId : UInt16) :
    Emits MapWrite.Allows (EbpfEnforcer.method fun e => e.removeVpc vpcId) := by
  intro e pinned w hw
  simp only [EbpfEnforcer.method, EbpfEnforcer.removeVpc] at hw
  split at hw
  · rw [List.mem_singleton.mp hw]
    trivial
  · cases hw

theorem emits_ensureVpcs (vpcs : List Vpc) :
    Emits MapWrite.Allows (EbpfEnforcer.ensureVpcs vpcs) := by
  refine emits_block fun f hf => ?_
  obtain ⟨vpc, -, rfl⟩ := List.mem_map.mp hf
  intro e pinned w hw
  simp only [EbpfEnforcer.method, EbpfEnforcer.logged, EbpfEnforcer.ensureVpc] at hw
  split_ifs at hw
  · cases hw
  · cases hparse : EbpfEnforcer.parseCidr vpc.ipv4Cidr with
    | error message =>
        rw [hparse] at hw
        cases hw
    | ok parsed =>
        rw [hparse] at hw
        rw [List.mem_singleton.mp hw]
        trivial

/-- The daemon enters what its enforcer does. -/
theorem emits_enforce {f : Proc EbpfEnforcer Pinned MapWrite} (h : Emits MapWrite.Allows f) :
    Emits Write.Allows (enforce f) := by
  intro d disk w hw
  obtain ⟨write, hwrite, rfl⟩ := List.mem_map.mp hw
  exact h _ _ write hwrite

theorem emits_boot : Emits Write.Allows boot := by
  intro d disk w hw
  obtain ⟨write, hwrite, rfl⟩ := List.mem_map.mp hw
  show MapWrite.Allows write
  refine emits_block (fun f hf => ?_) _ _ write hwrite
  rcases List.mem_pair.mp hf with rfl | rfl
  · exact emits_ensureVpcs _
  · refine emits_block fun g hg => ?_
    obtain ⟨peering, -, rfl⟩ := List.mem_map.mp hg
    exact emits_installPeeringRules peering _

theorem emits_syncCycle (c : Cycle) : Emits Write.Allows (syncCycle c) := by
  have hmodify : ∀ f : Daemon → Daemon,
      Emits (P := Disk) Write.Allows (modify f) := fun f d disk w hw => nomatch hw
  refine emits_block ?_
  simp only [List.forall_mem_cons]
  refine ⟨?_, ?_, hmodify _, emits_enforce (emits_ensureVpcs _), ?_, hmodify _, ?_, ?_, hmodify _,
    ?_, nofun⟩
  · intro d disk w hw
    rw [List.mem_singleton.mp hw]
    trivial
  · intro d disk w hw
    rw [List.mem_singleton.mp hw]
    trivial
  · intro d
    refine emits_enforce (emits_block fun f hf => ?_) d
    obtain ⟨vpcId, -, rfl⟩ := List.mem_map.mp hf
    exact emits_removeVpc vpcId
  · intro d
    refine emits_enforce (emits_block fun f hf => ?_) d
    obtain ⟨name, -, rfl⟩ := List.mem_map.mp hf
    exact emits_removePeeringRules name
  · refine emits_enforce (emits_block fun f hf => ?_)
    obtain ⟨peering, -, rfl⟩ := List.mem_map.mp hf
    refine emits_block fun g hg => ?_
    rcases List.mem_pair.mp hg with rfl | rfl
    · exact emits_removePeeringRules peering.name
    · exact emits_installPeeringRules peering c.vpcs
  · intro d disk w hw
    rw [List.mem_singleton.mp hw]
    trivial

theorem emits_lifetime (cycles : List Cycle) : Emits Write.Allows (lifetime cycles) := by
  refine emits_block fun f hf => ?_
  rcases List.mem_cons.mp hf with rfl | hcycle
  · exact emits_boot
  · obtain ⟨c, -, rfl⟩ := List.mem_map.mp hcycle
    exact emits_syncCycle c

theorem allAllowed_diskAfter (history : List Lifetime) : (diskAfter history).AllAllowed := by
  refine Transition.invariant_run Disk.AllAllowed (fun disk l _ h => ?_) ?_
    (Transition.admitted_true _ _ history)
  · refine commit_of_forall (fun disk w hw h => h.write hw) (fun w hw => ?_) h
    exact emits_lifetime l.cycles _ _ w (List.mem_of_mem_take hw)
  · intro key value hvalue
    cases hvalue

/-- On every disk a process has left, in every state of the next. -/
theorem allAllowed_lifetime (history : List Lifetime) (cycles : List Cycle) :
    (exec Disk.write (lifetime cycles) (.down, diskAfter history)).2.AllAllowed :=
  commit_of_forall (fun _ _ hw h => h.write hw) (emits_lifetime cycles _ _)
    (allAllowed_diskAfter history)

/-! ## Agreement -/

/-- Ids that `enforce_v6` passes without looking at a peering: those of the infrastructure, and
the same one twice. -/
def Unfiltered (a b : Vpc) : Prop := a.vpcId = 0 ∨ b.vpcId = 0 ∨ a.vpcId = b.vpcId

/-- The key of a pair. -/
def pairKey (a b : Vpc) : PeeringKey := ⟨a.vpcId, b.vpcId⟩

/-- The map has no entry for the key, or one that is recorded for a name whose rules the
cycle removes. -/
def Cycle.Cleared (c : Cycle) (s : Daemon × Disk) (key : PeeringKey) : Prop :=
  (s.2.pinned.maps.peerings key).isSome →
    ∃ name, (name ∈ s.1.prevPeeringNames ∨ name ∈ c.currentPeeringNames) ∧ s.1.Records name key

/-- **When the three agree after a cycle**, in terms of the state before it. -/
structure Unanimous (s : Daemon × Disk) (c : Cycle) : Prop where
  /-- A stored peering that is not listed any more connects nothing that the listed ones do
  not connect. -/
  notForgotten : ∀ a b, c.Pair a b → ∀ p ∈ s.2.store.loadPeerings,
    p.name ∉ c.peerings.map VpcPeering.name → p.Connects a.name b.name → c.Peered a.name b.name
  /-- The key of a connected pair is not removed after it was entered. -/
  kept : ∀ a b, c.Pair a b → c.Peered a.name b.name →
    Unfiltered a b ∨ c.Survives s.1 (pairKey a b)
  /-- A pair that is not connected has ids of its own, and its key is not left in the map. -/
  closed : ∀ a b, c.Pair a b → ¬ c.Peered a.name b.name →
    ¬ Unfiltered a b ∧ (c.Granted (pairKey a b) → ¬ c.Survives s.1 (pairKey a b)) ∧
      (¬ c.Granted (pairKey a b) → c.Cleared s (pairKey a b))

section Agreement

variable {s : Daemon × Disk} {c : Cycle} {a b : Vpc}

/-- A connected pair is granted its key. -/
theorem Listing.Peered.granted {l : Listing} (hpair : l.Pair a b)
    (h : l.Peered a.name b.name) : l.Granted (pairKey a b) := by
  obtain ⟨p, hp, hactive, ⟨hA, hB⟩ | ⟨hdir, hA, hB⟩⟩ := h
  · exact ⟨p, hp, hactive, a, hpair.left, b, hpair.right, hA.symm, hB.symm, Or.inl rfl⟩
  · exact ⟨p, hp, hactive, b, hpair.right, a, hpair.left, hA.symm, hB.symm, Or.inr ⟨hdir, rfl⟩⟩

/-- What `enforce_v6` decides by, where every entry of the map allows. -/
theorem passesGhost_iff_of_allAllowed {disk : Disk} (h : disk.AllAllowed) :
    PassesGhost disk.pinned.maps a.vpcId b.vpcId ↔
      Unfiltered a b ∨ (disk.pinned.maps.peerings (pairKey a b)).isSome := by
  have hallowed : peeringAllowed disk.pinned.maps a.vpcId b.vpcId = true ↔
      (disk.pinned.maps.peerings (pairKey a b)).isSome := by
    unfold peeringAllowed pairKey
    cases hentry : disk.pinned.maps.peerings ⟨a.vpcId, b.vpcId⟩ with
    | none => simp
    | some value => simpa using h _ value hentry
  rw [passesGhost_iff, vpcRule, Unfiltered, ← hallowed]
  simp only [Bool.or_eq_true, beq_iff_eq, or_assoc]

/-- The key of a pair after the cycle. -/
theorem isSome_syncCycle_iff (hnodup : s.1.prevPeeringNames.Nodup) {key : PeeringKey} :
    ((exec Disk.write (syncCycle c) s).2.pinned.maps.peerings key).isSome ↔
      (c.Granted key ∧ c.Survives s.1 key) ∨ (¬ c.Granted key ∧ ¬ c.Cleared s key) := by
  by_cases hgranted : c.Granted key
  · rw [isSome_syncCycle_of_granted c hgranted]
    simp [hgranted]
  · rw [isSome_syncCycle_of_not_granted c hnodup hgranted]
    simp only [hgranted, false_and, not_false_eq_true, true_and, false_or, Cycle.Cleared]
    push Not
    rfl

/-- **The step lemma.** -/
theorem decidersAgree_syncCycle (hnodup : s.1.prevPeeringNames.Nodup)
    (hallowed : (exec Disk.write (syncCycle c) s).2.AllAllowed) :
    DecidersAgree (exec Disk.write (syncCycle c) s) c.toListing ↔ Unanimous s c := by
  have hcheck : ∀ {a b}, c.Pair a b → (AnswersReachable
      (exec Disk.write (syncCycle c) s).2.store a.name b.name ↔ c.Peered a.name b.name ∨
        ∃ p ∈ s.2.store.loadPeerings, p.name ∉ c.peerings.map VpcPeering.name ∧
          p.Connects a.name b.name) := fun hpair => answersReachable_syncCycle c hpair.ne
  have hdns : ∀ {a b}, c.Pair a b → (DnsResolves c.peerings a.name b.name ↔
      c.Peered a.name b.name) := fun hpair => dnsResolves_iff hpair.ne
  have hpass : ∀ {a b}, PassesGhost (exec Disk.write (syncCycle c) s).2.pinned.maps a.vpcId
      b.vpcId ↔ Unfiltered a b ∨ (c.Granted (pairKey a b) ∧ c.Survives s.1 (pairKey a b)) ∨
        (¬ c.Granted (pairKey a b) ∧ ¬ c.Cleared s (pairKey a b)) := by
    intro a b
    rw [passesGhost_iff_of_allAllowed hallowed, isSome_syncCycle_iff hnodup]
  constructor
  · intro h
    refine ⟨fun a b hpair p hp hname hconnects => ?_, fun a b hpair hpeered => ?_,
      fun a b hpair hnot => ?_⟩
    · obtain ⟨hstore, hmap⟩ := h a b hpair
      exact (hdns hpair).mp (hmap.mp (hstore.mp
        ((hcheck hpair).mpr (Or.inr ⟨p, hp, hname, hconnects⟩))))
    · -- the server's pair passes, so its key is there; it is granted, hence it survived
      have hgranted := hpeered.granted hpair
      rcases hpass.mp ((h a b hpair).2.mpr ((hdns hpair).mpr hpeered)) with
        hids | ⟨-, hsurvives⟩ | ⟨hno, -⟩
      · exact Or.inl hids
      · exact Or.inr hsurvives
      · exact absurd hgranted hno
    · -- neither a granted key that survived nor an old one that was left
      have hblocked : ¬ PassesGhost (exec Disk.write (syncCycle c) s).2.pinned.maps a.vpcId
          b.vpcId := fun hthrough => hnot ((hdns hpair).mp ((h a b hpair).2.mp hthrough))
      rw [hpass, not_or, not_or] at hblocked
      obtain ⟨hids, hgranted, hleft⟩ := hblocked
      exact ⟨hids, fun hg hsurvives => hgranted ⟨hg, hsurvives⟩,
        fun hg => not_not.mp fun hcleared => hleft ⟨hg, hcleared⟩⟩
  · intro h a b hpair
    rw [hcheck hpair, hpass, hdns hpair]
    by_cases hpeered : c.Peered a.name b.name
    · have hgranted := hpeered.granted hpair
      have hthrough := h.kept a b hpair hpeered
      constructor
      · refine iff_of_true (Or.inl hpeered) ?_
        exact hthrough.imp_right fun hsurvives => Or.inl ⟨hgranted, hsurvives⟩
      · refine iff_of_true ?_ hpeered
        exact hthrough.imp_right fun hsurvives => Or.inl ⟨hgranted, hsurvives⟩
    · obtain ⟨hids, hsurvives, hcleared⟩ := h.closed a b hpair hpeered
      have hstored : ¬ (c.Peered a.name b.name ∨ ∃ p ∈ s.2.store.loadPeerings,
          p.name ∉ c.peerings.map VpcPeering.name ∧ p.Connects a.name b.name) := by
        rintro (hpeered' | ⟨p, hp, hname, hconnects⟩)
        · exact hpeered hpeered'
        · exact hpeered (h.notForgotten a b hpair p hp hname hconnects)
      have hblocked : ¬ (Unfiltered a b ∨
          (c.Granted (pairKey a b) ∧ c.Survives s.1 (pairKey a b)) ∨
            (¬ c.Granted (pairKey a b) ∧ ¬ c.Cleared s (pairKey a b))) := by
        rintro (hids' | ⟨hg, hs⟩ | ⟨hg, hs⟩)
        · exact hids hids'
        · exact hsurvives hg hs
        · exact hs (hcleared hg)
      exact ⟨iff_of_false hstored hblocked, iff_of_false hblocked hpeered⟩

end Agreement

/-- Between cycles the names of the last one are different. -/
theorem prevPeeringNames_nodup (cycles : List Cycle) (s : Daemon × Disk) :
    (exec Disk.write (lifetime cycles) s).1.prevPeeringNames.Nodup := by
  cases cycles using List.reverseRecOn with
  | nil => exact List.nodup_nil
  | append_singleton init last =>
      rw [exec_lifetime_concat, prevPeeringNames_syncCycle]
      exact List.nodup_dedup _

/-- **Three deciders, one answer.**  After any history of processes and of cycles in the
running one, `CheckReachability`, `enforce_v6` and the DNS server agree on every pair of listed
VPCs after the next completed cycle if and only if the state before it and the lists of the
cycle are `Unanimous`. -/
theorem deciders_agree_iff (history : List Lifetime) (cycles : List Cycle) (c : Cycle) :
    DecidersAgree (exec Disk.write (lifetime (cycles ++ [c])) (.down, diskAfter history))
        c.toListing ↔
      Unanimous (exec Disk.write (lifetime cycles) (.down, diskAfter history)) c := by
  have hallowed := allAllowed_lifetime history (cycles ++ [c])
  rw [exec_lifetime_concat] at hallowed ⊢
  exact decidersAgree_syncCycle (prevPeeringNames_nodup cycles _) hallowed

/-- The peering between blue and green is deleted; only `CheckReachability` still goes by it. -/
theorem deciders_agree_fails_deleted :
    ¬ DecidersAgree (exec Disk.write (lifetime ([blueGreenCycle [mutualPeering] (by decide)] ++
        [blueGreenCycle [] (by decide)])) (.down, diskAfter []))
      (blueGreenCycle [] (by decide)).toListing := by
  intro h
  obtain ⟨hstore, hmap⟩ := h ⟨"blue", 5, "10.0.0.0/24", .active⟩ ⟨"green", 6, "10.1.0.0/24", .active⟩
    ⟨List.mem_cons_self, List.mem_cons_of_mem _ List.mem_cons_self, by decide⟩
  have hanswer : AnswersReachable (exec Disk.write (lifetime
      ([blueGreenCycle [mutualPeering] (by decide)] ++ [blueGreenCycle [] (by decide)]))
        (.down, diskAfter [])).2.store "blue" "green" := by
    refine (answersReachable_iff (by decide)).mpr ⟨mutualPeering, ?_, rfl, Or.inl ⟨rfl, rfl⟩⟩
    decide
  obtain ⟨p, hp, -⟩ := (dnsResolves_iff (by decide)).mp (hmap.mp (hstore.mp hanswer))
  cases hp

end K3rs
