import K3rs.Ebpf.Translate

/-!
# What the next program sees

A frame that leaves one hook is classified at the next, and every program there first reads
the ethertype at offset 12.  `Serves proto` says so: a program leaves a frame of another
ethertype alone, verdict `TC_ACT_OK`.

## The ethertype of a translated frame

No translator stores to the Ethernet header and `change_proto` keeps it (`translations_keepEth`), so a
translated frame still carries the ethertype the translator looked for.  That is the one
ethertype the programs of the next hook do not serve: `translated_keeps_etherType`.

## The netkit chain

An OCI pod's frames pass `siit_in` on the pod's `eth0` and then `tc_ingress_v6` on the host
side.  `siit_in` serves IPv4 only, so an IPv6 frame a pod builds itself reaches the
classifier as sent, whatever source it names; `netkit_isolation_iff` says for which frames
isolation holds nevertheless.
-/

namespace K3rs.Ebpf

open Wire Net Effects

/-! ## Serving one ethertype -/

section Serves

variable {K : Kernel} {f : Frame} {π : Type}

/-- A first half that decides to translate only frames of the given ethertype. -/
def Serves (proto : UInt16) (plan : Frame → Except Unit (Decision π)) : Prop :=
  ∀ f, etherType f ≠ proto → plan f = .error () ∨ plan f = .ok (.verdict .ok)

/-- The first test of every program. -/
theorem load16_of_etherType_ne {proto : UInt16} (hne : etherType f ≠ proto) :
    load16 K f 12 = .error () ∨ ∃ w, load16 K f 12 = .ok w ∧ w ≠ be16 K proto := by
  by_cases hlen : 14 ≤ f.length
  · obtain ⟨w, hload, hw⟩ := load16_etherType K hlen
    exact Or.inr ⟨w, hload, fun heq => hne ((hw proto).mp heq)⟩
  · refine Or.inl ?_
    rw [load16, load16_eq_none (by omega), orErr_none]

/-- A program that starts with that test serves that ethertype. -/
theorem serves_of_test {proto : UInt16} {plan : Frame → Except Unit (Decision π)}
    (rest : Frame → UInt16 → Except Unit (Decision π))
    (hplan : ∀ f, plan f = load16 K f 12 >>= rest f)
    (hrest : ∀ f w, w ≠ be16 K proto → rest f w = .ok (.verdict .ok)) : Serves proto plan := by
  intro f hne
  rw [hplan]
  rcases load16_of_etherType_ne (K := K) hne with hload | ⟨w, hload, hw⟩
  · rw [hload]
    exact Or.inl rfl
  · rw [hload]
    exact Or.inr (hrest f w hw)

theorem siitInPlan_serves (my : Globals) : Serves ETH_P_IP (siitInPlan K my) :=
  serves_of_test _ (fun _ => rfl) fun _ _ hw => if_pos hw

theorem siitOutPlan_serves (my : Globals) : Serves ETH_P_IPV6 (siitOutPlan K my) :=
  serves_of_test _ (fun _ => rfl) fun _ _ hw => if_pos hw

theorem nat64EgressPlan_serves (maps : Maps) : Serves ETH_P_IPV6 (nat64EgressPlan K maps) :=
  serves_of_test _ (fun _ => rfl) fun _ _ hw => if_pos hw

theorem nat64IngressPlan_serves (maps : Maps) : Serves ETH_P_IP (nat64IngressPlan K maps) :=
  serves_of_test _ (fun _ => rfl) fun _ _ hw => if_pos hw

theorem Serves.etherType_eq {proto : UInt16} {plan : Frame → Except Unit (Decision π)}
    (h : Serves proto plan) {p : π} (hp : plan f = .ok (.translate p)) : etherType f = proto := by
  by_contra hne
  rcases h f hne with heq | heq <;> rw [hp] at heq <;> cases heq

/-- A frame of another ethertype passes unchanged. -/
theorem Serves.classify_eq {proto : UInt16} (plan : Maps → Frame → Except Unit (Decision π))
    {maps : Maps} (h : Serves proto (plan maps)) (act : π → TcM Action)
    (hne : etherType f ≠ proto) :
    classify (translator (fun ctx => plan ctx.maps ctx.frame) act) ⟨f, maps⟩ =
      (.ok, ⟨f, maps⟩) := by
  rcases h f hne with hplan | hplan
  · rw [classify, exec_translator_error hplan]
    rfl
  · rw [classify, exec_translator_verdict hplan]
    rfl

theorem siitIn_of_etherType_ne (my : Globals) (maps : Maps) (hne : etherType f ≠ ETH_P_IP) :
    siitIn K my ⟨f, maps⟩ = (.ok, ⟨f, maps⟩) :=
  Serves.classify_eq (fun _ => siitInPlan K my) (siitInPlan_serves my) _ hne

theorem siitOut_of_etherType_ne (my : Globals) (maps : Maps) (hne : etherType f ≠ ETH_P_IPV6) :
    siitOut K my ⟨f, maps⟩ = (.ok, ⟨f, maps⟩) :=
  Serves.classify_eq (fun _ => siitOutPlan K my) (siitOutPlan_serves my) _ hne

/-- The isolation policy is not applied to a frame of another ethertype. -/
theorem tcIngressV6_of_etherType_ne (maps : Maps) (hne : etherType f ≠ ETH_P_IPV6) :
    tcIngressV6 K maps f = .ok := by
  rcases load16_of_etherType_ne (K := K) hne with hload | ⟨w, hload, hw⟩
  · rw [tcIngressV6, tryTcIngressV6, enforceV6, hload]
    rfl
  · have henforce : enforceV6 K maps f = .ok .ok := by
      rw [enforceV6, hload]
      exact if_pos hw
    rw [tcIngressV6, tryTcIngressV6, henforce, hload]
    exact congrArg failOpen (if_pos hw)

end Serves

/-! ## The ethertype of a translated frame -/

/-- The program ends, and has resized the frame on the way. -/
def Translates (program : TcM Action) (ctx ctx' : TcContext) : Prop :=
  (∃ action, exec program ctx = (.ok action, ctx')) ∧ ctx'.frame.length ≠ ctx.frame.length

/-- A program that resizes the frame has decided to, and its second half has ended. -/
theorem Translates.plan {π : Type} {decide : TcContext → Except Unit (Decision π)}
    {act : π → TcM Action} {ctx ctx' : TcContext} (h : Translates (translator decide act) ctx ctx') :
    ∃ plan action, decide ctx = .ok (.translate plan) ∧ exec (act plan) ctx = (.ok action, ctx') := by
  obtain ⟨⟨action, hexec⟩, hlen⟩ := h
  have hchange : (exec (translator decide act) ctx).2 ≠ ctx := by
    rw [hexec]
    rintro rfl
    exact hlen rfl
  obtain ⟨plan, hplan⟩ := exists_plan_of_exec_ne hchange
  rw [exec_translator_translate hplan] at hexec
  exact ⟨plan, action, hplan, hexec⟩

theorem etherType_take (f : Frame) : etherType (f.take 14) = etherType f := by
  simp [etherType, List.getD_eq_getElem?_getD, List.getElem?_take_of_lt]

section Ethertype

variable {π : Type} (plan : Maps → Frame → Except Unit (Decision π)) {act : π → TcM Action}

/-- What a program that serves `proto` and keeps the Ethernet bytes does to a frame: the
frame it leaves still has ethertype `proto`. -/
theorem Translates.etherType_eq {proto : UInt16} (hserves : ∀ maps, Serves proto (plan maps))
    (hkeeps : ∀ p eth, Keeps (HasEth eth) (act p)) {ctx ctx' : TcContext}
    (h : Translates (translator (fun ctx => plan ctx.maps ctx.frame) act) ctx ctx') :
    etherType ctx'.frame = proto := by
  obtain ⟨p, action, hp, hexec⟩ := h.plan
  have heth : HasEth (ctx.frame.take 14) ctx' := by
    have hkept := hkeeps p (ctx.frame.take 14) ctx rfl
    rw [hexec] at hkept
    exact hkept
  rw [← etherType_take, heth, etherType_take]
  exact (hserves ctx.maps).etherType_eq hp

end Ethertype

section Programs

variable {K : Kernel} (hL3 : K.ResizesL3) (hL4 : K.UpdatesL4Csum) {ctx ctx' : TcContext}
include hL3 hL4

theorem trySiitIn_etherType {my : Globals} (h : Translates (trySiitIn K my) ctx ctx') :
    etherType ctx'.frame = ETH_P_IP :=
  Translates.etherType_eq (fun _ => siitInPlan K my) (fun _ => siitInPlan_serves my)
    (fun p eth => Keeps.bind ((translations_keepEth hL3 hL4 eth).1 p) fun _ => Keeps.pure _) h

theorem trySiitOut_etherType {my : Globals} (h : Translates (trySiitOut K my) ctx ctx') :
    etherType ctx'.frame = ETH_P_IPV6 :=
  Translates.etherType_eq (fun _ => siitOutPlan K my) (fun _ => siitOutPlan_serves my)
    (fun p eth => Keeps.bind ((translations_keepEth hL3 hL4 eth).2 p) fun _ => Keeps.pure _) h

theorem tryNat64Egress_etherType (h : Translates (tryNat64Egress K) ctx ctx') :
    etherType ctx'.frame = ETH_P_IPV6 := by
  refine Translates.etherType_eq (nat64EgressPlan K) nat64EgressPlan_serves (fun p eth => ?_) h
  refine Keeps.bind (Keeps.modifies fun s s' hs hctx => ?_) fun _ =>
    Keeps.bind ((translations_keepEth hL3 hL4 eth).2 p.packet) fun _ => Keeps.pure _
  cases hs
  exact hctx

theorem tryNat64Ingress_etherType (h : Translates (tryNat64Ingress K) ctx ctx') :
    etherType ctx'.frame = ETH_P_IP :=
  Translates.etherType_eq (nat64IngressPlan K) nat64IngressPlan_serves
    (fun p eth => Keeps.bind ((translations_keepEth hL3 hL4 eth).1 p) fun _ => Keeps.reads _) h

end Programs

/-- **Translated frames keep the old ethertype.**  Every frame `siit_in` translates is
still an IPv4 frame to the programs after it: no isolation rule and no redirect is applied
to it, and no pod's `siit_out` translates it back.  The other three translators leave the
old ethertype as well. -/
theorem translated_keeps_etherType (K : Kernel) (hL3 : K.ResizesL3) (hL4 : K.UpdatesL4Csum)
    (my : Globals) (ctx ctx' : TcContext) :
    (Translates (trySiitIn K my) ctx ctx' →
      etherType ctx'.frame ≠ ETH_P_IPV6 ∧
        (∀ maps, tcIngressV6 K maps ctx'.frame = .ok) ∧
          ∀ my' maps, siitOut K my' ⟨ctx'.frame, maps⟩ = (.ok, ⟨ctx'.frame, maps⟩)) ∧
      (Translates (trySiitOut K my) ctx ctx' → etherType ctx'.frame ≠ ETH_P_IP) ∧
      (Translates (tryNat64Egress K) ctx ctx' → etherType ctx'.frame ≠ ETH_P_IP) ∧
      (Translates (tryNat64Ingress K) ctx ctx' → etherType ctx'.frame ≠ ETH_P_IPV6) := by
  have hne : ETH_P_IP ≠ ETH_P_IPV6 := by decide
  refine ⟨fun h => ?_, fun h => ?_, fun h => ?_, fun h => ?_⟩
  · have hetype : etherType ctx'.frame ≠ ETH_P_IPV6 := by
      rw [trySiitIn_etherType hL3 hL4 h]
      exact hne
    exact ⟨hetype, fun maps => tcIngressV6_of_etherType_ne maps hetype,
      fun my' maps => siitOut_of_etherType_ne my' maps hetype⟩
  · rw [trySiitOut_etherType hL3 hL4 h]
    exact hne.symm
  · rw [tryNat64Egress_etherType hL3 hL4 h]
    exact hne.symm
  · rw [tryNat64Ingress_etherType hL3 hL4 h]
    exact hne

/-- A UDP datagram from 10.0.0.1 to 10.0.0.2. -/
def udpFrame : Frame :=
  List.replicate 12 0 ++ [0x08, 0x00, 0x45, 0, 0, 28, 0, 0, 0x40, 0, 64, 17, 0, 0,
    10, 0, 0, 1, 10, 0, 0, 2, 0x10, 0, 0x20, 0, 0, 8, 0x12, 0x34]

/-- What `siit_in` of the sending pod leaves of it. -/
def udpTranslated : TcContext :=
  (exec (trySiitIn (.linux .little) (podGlobals 5 (.ofOctets 10 0 0 1))) ⟨udpFrame, {}⟩).2

theorem translates_udpFrame :
    Translates (trySiitIn (.linux .little) (podGlobals 5 (.ofOctets 10 0 0 1))) ⟨udpFrame, {}⟩
      udpTranslated := by
  refine ⟨⟨.ok, Prod.ext ?_ rfl⟩, ?_⟩
  · decide
  · decide

/-- The datagram is translated, and is not an IPv6 frame afterwards. -/
theorem udpFrame_not_seen_as_ipv6 :
    Translates (trySiitIn (.linux .little) (podGlobals 5 (.ofOctets 10 0 0 1))) ⟨udpFrame, {}⟩
        udpTranslated ∧
      etherType udpTranslated.frame ≠ ETH_P_IPV6 := by
  refine ⟨translates_udpFrame, ?_⟩
  decide

/-- The general statement at that datagram. -/
theorem translated_keeps_etherType_udpFrame :
    etherType udpTranslated.frame ≠ ETH_P_IPV6 ∧
      (∀ maps, tcIngressV6 (.linux .little) maps udpTranslated.frame = .ok) ∧
        ∀ my' maps, siitOut (.linux .little) my' ⟨udpTranslated.frame, maps⟩ =
          (.ok, ⟨udpTranslated.frame, maps⟩) :=
  (translated_keeps_etherType _ (Kernel.linux_resizesL3 _) (Kernel.linux_updatesL4Csum _) _ _
    _).1 translates_udpFrame

/-! ## The netkit chain -/

/-- The verdict on a frame a pod sends: `siit_in` in the pod, then `tc_ingress_v6` on the
frame it leaves. -/
def netkitEgress (K : Kernel) (maps : Maps) (my : Globals) (f : Frame) : Action :=
  match siitIn K my ⟨f, maps⟩ with
  | (.ok, ctx) => tcIngressV6 K maps ctx.frame
  | (verdict, _) => verdict

/-- The pod's VPC may reach the packet's destination. -/
def podMayReach (maps : Maps) (my : Globals) (f : Frame) : Prop :=
  my.myVpcId = ghostVpcId (ipv6Dst f) ∨
    peeringAllowed maps my.myVpcId (ghostVpcId (ipv6Dst f)) = true

/-- The packet names a Ghost source from whose VPC the destination may be reached, while
the pod's own VPC may not reach it. -/
structure ForgesSource (maps : Maps) (my : Globals) (f : Frame) : Prop where
  source : isGhost (ipv6Src f) = true
  reach : mayReach maps (ipv6Src f) (ipv6Dst f) = true
  own : ¬ podMayReach maps my f

/-- An IPv6 frame of a pod is judged as it was sent. -/
theorem netkitEgress_of_ipv6 {K : Kernel} {maps : Maps} {my : Globals} {f : Frame}
    (h : IsIpv6Packet f) : netkitEgress K maps my f = tcIngressV6 K maps f := by
  have hne : etherType f ≠ ETH_P_IP := by
    rw [h.etherType]
    decide
  rw [netkitEgress, siitIn_of_etherType_ne my maps hne]

/-- **What isolates a netkit pod.**  A complete IPv6 packet to a Ghost destination of
another VPC gets through without permission exactly when its source is forged. -/
theorem netkit_isolation_iff (K : Kernel) (maps : Maps) (my : Globals) (f : Frame)
    (h : IsIpv6Packet f) (hdst : isGhost (ipv6Dst f) = true)
    (_hvpc : ghostVpcId (ipv6Dst f) ≠ 0) :
    (netkitEgress K maps my f ≠ .shot → podMayReach maps my f) ↔ ¬ ForgesSource maps my f := by
  rw [netkitEgress_of_ipv6 h, ne_eq, tcIngressV6_eq_shot_iff K maps h]
  constructor
  · rintro hlaw ⟨hsrc, hreach, hown⟩
    exact hown (hlaw fun hdrop => hdrop.2 ⟨hsrc, hreach⟩)
  · intro hforge haccept
    by_contra hown
    refine haccept ⟨hdst, fun hsrc => ?_⟩
    exact hforge ⟨hsrc.1, hsrc.2, hown⟩

/-- A pod of VPC 5 writing a source of VPC 6 into a packet for VPC 6. -/
def forgedFrame : Frame :=
  bareIpv6 (construct PLATFORM_PREFIX 1 6 (.ofOctets 10 0 0 9))
    (construct PLATFORM_PREFIX 1 6 (.ofOctets 10 0 0 2))

/-- The forged packet is not dropped, although nothing lets VPC 5 reach VPC 6. -/
theorem netkit_isolation_fails_forged :
    IsIpv6Packet forgedFrame ∧ isGhost (ipv6Dst forgedFrame) = true ∧
      ghostVpcId (ipv6Dst forgedFrame) ≠ 0 ∧
      netkitEgress (.linux .little) {} (podGlobals 5 (.ofOctets 10 0 0 1)) forgedFrame ≠ .shot ∧
        ¬ podMayReach {} (podGlobals 5 (.ofOctets 10 0 0 1)) forgedFrame := by
  refine ⟨by decide, by decide, by decide, by decide, ?_⟩
  rintro (hsame | hpeer)
  · exact absurd hsame (by decide)
  · exact absurd hpeer (by decide)

/-- The characterization at the forged packet. -/
theorem netkit_isolation_iff_forged :
    (netkitEgress (.linux .little) {} (podGlobals 5 (.ofOctets 10 0 0 1)) forgedFrame ≠ .shot →
        podMayReach {} (podGlobals 5 (.ofOctets 10 0 0 1)) forgedFrame) ↔
      ¬ ForgesSource {} (podGlobals 5 (.ofOctets 10 0 0 1)) forgedFrame :=
  netkit_isolation_iff _ _ _ _ (by decide) (by decide) (by decide)

end K3rs.Ebpf
