import K3rs.Ebpf.Decisions
import K3rs.Ebpf.L4Checksum

/-!
# Half a translation

A translator resizes the L3 header, writes it, and then updates the L4 checksum eight times.  On
a frame that it decides to translate only the updates can fail: the decision has read the whole
L3 header, but of the L4 header at most the ports.  A frame that ends before its checksum field
leaves with the header of the other family and the checksum of its own, and the classifier fails
open.

`CutShort` is that case.  In every other one a frame that continues is as it was, or `Complete6`,
or `Complete4`: `all_or_nothing_iff`.
-/

namespace K3rs.Ebpf

open Wire Net Effects OnesComplement

/-! ## Complete translations -/

/-- An IPv6 header in place of the IPv4 header, and the checksum adjusted by the difference of the
addresses. -/
def Complete6 (f g : Frame) : Prop :=
  ∃ (p : ToIpv6) (c : UInt16), p.protocol = ipv4Protocol f ∧
    34 + l4CsumOff (ipv4Protocol f) + 2 ≤ f.length ∧ g = toIpv6Frame f p c ∧
      c.toNat + addrSum6 p.srcIpv6 p.dstIpv6 ≡
        (halfBe f (34 + l4CsumOff (ipv4Protocol f))).toNat + addrSum4 (ipv4Src f) (ipv4Dst f)
          [MOD 65535]

/-- An IPv4 header in place of the IPv6 header, and the checksum adjusted. -/
def Complete4 (K : Kernel) (f g : Frame) : Prop :=
  ∃ (p : ToIpv4) (c : UInt16), p.nextHdr = f.getD 20 0 ∧
    54 + l4CsumOff (f.getD 20 0) + 2 ≤ f.length ∧ g = toIpv4Frame K f p c ∧
      p.srcRaw = be32 K p.srcIpv4 ∧ p.dstRaw = be32 K p.dstIpv4 ∧
      c.toNat + addrSum4 p.srcIpv4 p.dstIpv4 ≡
        (halfBe f (54 + l4CsumOff (f.getD 20 0))).toNat + addrSum6 (ipv6Src f) (ipv6Dst f)
          [MOD 65535]

/-- A frame that continues is untouched or complete. -/
def AllOrNothing (complete : Frame → Prop) (f : Frame) (result : Action × TcContext) : Prop :=
  result.1 ≠ .shot → result.2.frame = f ∨ complete result.2.frame

/-- The L4 checksum of a frame is not, or not wholly, in it. -/
def CutShort (f : Frame) (l4 : ℕ) (protocol : UInt8) : Prop :=
  f.length < l4 + l4CsumOff protocol + 2

instance (f : Frame) (l4 : ℕ) (protocol : UInt8) : Decidable (CutShort f l4 protocol) :=
  inferInstanceAs (Decidable (_ < _))

/-! ## Second halves that stop -/

section Short

variable {K : Kernel} {f : Frame} {maps : Maps}

/-- Past the end of the frame no checksum is updated. -/
theorem exec_l4CsumReplace_short (hL4 : K.UpdatesL4Csum) {off : ℕ} (m m' : UInt32)
    (hshort : f.length < off + 2) :
    exec (l4CsumReplace K off m m') ⟨f, maps⟩ = (.error (), ⟨f, maps⟩) := by
  refine exec_modifies_none ?_
  cases hreplace : K.l4CsumReplace f off m.toUInt64 m'.toUInt64 CSUM_FLAGS with
  | none => simp only [hreplace, Option.map_none]
  | some g =>
      have hlen := (hL4.bounded _ _ _ _ _ _ hreplace).1
      omega

/-- `toIpv6` on a frame that is cut short: the header is written, then it stops. -/
theorem toIpv6_exec_short (hL3 : K.ResizesL3) (hL4 : K.UpdatesL4Csum) (p : ToIpv6)
    (hlen : 34 ≤ f.length) (hshort : CutShort f 34 p.protocol) :
    exec (toIpv6 K p) ⟨f, maps⟩ = (.error (), ⟨f.take 14 ++ (ipv6Header p ++ f.drop 34), maps⟩) := by
  obtain ⟨hdr, hhdr, hresize⟩ := hL3.grow f hlen
  have heth : (f.take 14).length = 14 := by
    rw [List.length_take]
    omega
  have hproto : exec (changeProto K ETH_P_IPV6) ⟨f, maps⟩ =
      (.ok (), ⟨f.take 14 ++ (hdr ++ f.drop 34), maps⟩) := exec_onFrame hresize
  rw [toIpv6, exec_bind_ok hproto, exec_bind_ok (exec_writeIpv6Header K p maps heth hhdr)]
  refine exec_bind_error (exec_l4CsumReplace_short hL4 _ _ ?_)
  unfold CutShort at hshort
  simp only [List.length_append, heth, length_ipv6Header, List.length_drop, ETH_HDR_LEN,
    IPV6_HDR_LEN]
  omega

/-- `toIpv4` on a frame that is cut short. -/
theorem toIpv4_exec_short (hL3 : K.ResizesL3) (hL4 : K.UpdatesL4Csum) (p : ToIpv4)
    (hlen : 54 ≤ f.length) (hshort : CutShort f 54 p.nextHdr) :
    exec (toIpv4 K p) ⟨f, maps⟩ =
      (.error (), ⟨f.take 14 ++ (ipv4Header K p ++ f.drop 54), maps⟩) := by
  obtain ⟨hdr, hhdr, hresize⟩ := hL3.shrink f hlen
  have heth : (f.take 14).length = 14 := by
    rw [List.length_take]
    omega
  have hproto : exec (changeProto K ETH_P_IP) ⟨f, maps⟩ =
      (.ok (), ⟨f.take 14 ++ (hdr ++ f.drop 54), maps⟩) := exec_onFrame hresize
  rw [toIpv4, exec_bind_ok hproto, exec_bind_ok (exec_writeIpv4Header K p maps heth hhdr),
    ← ToIpv4.hdrCsum, exec_bind_ok (exec_storeHdrCsum K p maps heth)]
  refine exec_bind_error (exec_l4CsumReplace_short hL4 _ _ ?_)
  unfold CutShort at hshort
  simp only [List.length_append, heth, ipv4Header, length_ipv4HeaderWith K p (length_u16ToBe _),
    List.length_drop, ETH_HDR_LEN, IPV4_HDR_LEN]
  omega

end Short

/-! ## Second halves that end -/

section Ends

variable {K : Kernel} {f : Frame} (maps : Maps)

theorem Complete6.not_cutShort {g : Frame} (h : Complete6 f g) :
    ¬ CutShort f 34 (ipv4Protocol f) := by
  obtain ⟨p, c, -, hlen, -⟩ := h
  exact Nat.not_lt.mpr hlen

theorem Complete4.not_cutShort {g : Frame} (h : Complete4 K f g) :
    ¬ CutShort f 54 (f.getD 20 0) := by
  obtain ⟨p, c, -, hlen, -⟩ := h
  exact Nat.not_lt.mpr hlen

theorem toIpv6_exec_complete (hL3 : K.ResizesL3) (hL4 : K.UpdatesL4Csum) {p : ToIpv6}
    (hproto : p.protocol = ipv4Protocol f) (hsrc : p.srcRaw = be32 K (ipv4Src f))
    (hdst : p.dstRaw = be32 K (ipv4Dst f)) (hlong : ¬ CutShort f 34 (ipv4Protocol f)) :
    ∃ g, exec (toIpv6 K p) ⟨f, maps⟩ = (.ok (), ⟨g, maps⟩) ∧ Complete6 f g := by
  have hlen : 34 + l4CsumOff (ipv4Protocol f) + 2 ≤ f.length := Nat.not_lt.mp hlong
  obtain ⟨c, hexec, hc⟩ := toIpv6_exec_wire hL3 hL4 p _ _ hsrc hdst maps (by rw [hproto]; exact hlen)
  refine ⟨toIpv6Frame f p c, hexec, p, c, hproto, hlen, rfl, ?_⟩
  rwa [hproto] at hc

theorem toIpv4_exec_complete (hL3 : K.ResizesL3) (hL4 : K.UpdatesL4Csum) {p : ToIpv4}
    (hproto : p.nextHdr = f.getD 20 0) (hsrc6 : p.srcV6 = addrWords K (ipv6Src f))
    (hdst6 : p.dstV6 = addrWords K (ipv6Dst f)) (hsrc : p.srcRaw = be32 K p.srcIpv4)
    (hdst : p.dstRaw = be32 K p.dstIpv4) (hlong : ¬ CutShort f 54 (f.getD 20 0)) :
    ∃ g, exec (toIpv4 K p) ⟨f, maps⟩ = (.ok (), ⟨g, maps⟩) ∧ Complete4 K f g := by
  have hlen : 54 + l4CsumOff (f.getD 20 0) + 2 ≤ f.length := Nat.not_lt.mp hlong
  obtain ⟨c, hexec, hc⟩ := toIpv4_exec_wire hL3 hL4 p _ _ _ _ hsrc6 hdst6 hsrc hdst maps
    (by rw [hproto]; exact hlen)
  refine ⟨toIpv4Frame K f p c, hexec, p, c, hproto, hlen, rfl, hsrc, hdst, ?_⟩
  rwa [hproto] at hc

end Ends

/-! ## Around the decision -/

/-- What the second half does to a frame of length other than what it leaves: stopped short, the
rule fails; to the end, it holds. -/
theorem allOrNothing_translator_iff {π : Type} {decide : TcContext → Except Unit (Decision π)}
    {act : π → TcM Action} {complete : Frame → Prop} {cut : Prop} (ctx : TcContext)
    (hcut : ∀ plan, decide ctx = .ok (.translate plan) → cut →
      ∃ ctx', exec (act plan) ctx = (.error (), ctx') ∧ ctx'.frame.length ≠ ctx.frame.length ∧
        ¬ complete ctx'.frame)
    (hfull : ∀ plan, decide ctx = .ok (.translate plan) → ¬ cut →
      complete (exec (act plan) ctx).2.frame) :
    AllOrNothing complete ctx.frame (classify (translator decide act) ctx) ↔
      ¬ ((∃ plan, decide ctx = .ok (.translate plan)) ∧ cut) := by
  constructor
  · rintro hall ⟨⟨plan, hplan⟩, hcutShort⟩
    obtain ⟨ctx', hexec, hlen, hnot⟩ := hcut plan hplan hcutShort
    have hresult : classify (translator decide act) ctx = (.ok, ctx') := by
      rw [classify, exec_translator_translate hplan, hexec]
      rfl
    rw [hresult] at hall
    have hpasses : Action.ok ≠ Action.shot := by decide
    rcases hall hpasses with hsame | hcomplete
    · exact hlen (congrArg List.length hsame)
    · exact hnot hcomplete
  · intro hnot _
    by_cases hchange : (exec (translator decide act) ctx).2 = ctx
    · exact Or.inl (congrArg TcContext.frame hchange)
    · obtain ⟨plan, hplan⟩ := exists_plan_of_exec_ne hchange
      refine Or.inr ?_
      show complete (exec (translator decide act) ctx).2.frame
      rw [exec_translator_translate hplan]
      exact hfull plan hplan fun hcutShort => hnot ⟨⟨plan, hplan⟩, hcutShort⟩

section Programs

variable {K : Kernel} (hL3 : K.ResizesL3) (hL4 : K.UpdatesL4Csum) {f : Frame} {maps : Maps}
include hL3 hL4

/-- A frame cut short is neither untouched nor complete when `toIpv6` stops. -/
private theorem toIpv6_cut {p : ToIpv6} (k : Unit → TcM Action) (hlen : 34 ≤ f.length)
    (hproto : p.protocol = ipv4Protocol f) (hshort : CutShort f 34 (ipv4Protocol f)) :
    ∃ ctx', exec (toIpv6 K p >>= k) ⟨f, maps⟩ = (.error (), ctx') ∧
      ctx'.frame.length ≠ f.length ∧ ¬ Complete6 f ctx'.frame := by
  refine ⟨_, exec_bind_error (toIpv6_exec_short hL3 hL4 p hlen (by rw [hproto]; exact hshort)), ?_,
    fun h => h.not_cutShort hshort⟩
  simp only [List.length_append, List.length_take, length_ipv6Header, List.length_drop]
  omega

private theorem toIpv4_cut {p : ToIpv4} (k : Unit → TcM Action) (hlen : 54 ≤ f.length)
    (hproto : p.nextHdr = f.getD 20 0) (hshort : CutShort f 54 (f.getD 20 0)) :
    ∃ ctx', exec (toIpv4 K p >>= k) ⟨f, maps⟩ = (.error (), ctx') ∧
      ctx'.frame.length ≠ f.length ∧ ¬ Complete4 K f ctx'.frame := by
  refine ⟨_, exec_bind_error (toIpv4_exec_short hL3 hL4 p hlen (by rw [hproto]; exact hshort)), ?_,
    fun h => h.not_cutShort hshort⟩
  simp only [List.length_append, List.length_take, ipv4Header,
    length_ipv4HeaderWith K p (length_u16ToBe _), List.length_drop]
  omega

theorem siitIn_allOrNothing_iff (my : Globals) :
    AllOrNothing (Complete6 f) f (siitIn K my ⟨f, maps⟩) ↔
      ¬ (FromPod my f ∧ CutShort f 34 (ipv4Protocol f)) := by
  have hdecides : (∃ p, siitInPlan K my f = .ok (.translate p)) ↔ FromPod my f :=
    ⟨fun ⟨p, hp⟩ => (siitInPlan_iff.mp hp).1, fun h => ⟨_, siitInPlan_of_fromPod h⟩⟩
  rw [← hdecides]
  refine allOrNothing_translator_iff ⟨f, maps⟩ (fun p hplan hshort => ?_)
    fun p hplan hlong => ?_
  · obtain ⟨hfrom, rfl⟩ := siitInPlan_iff.mp hplan
    have hlen : 36 ≤ f.length := hfrom.length
    exact toIpv6_cut hL3 hL4 _ (by omega) rfl hshort
  · obtain ⟨hfrom, rfl⟩ := siitInPlan_iff.mp hplan
    obtain ⟨g, hexec, hcomplete⟩ := toIpv6_exec_complete maps hL3 hL4
      (p := fromPodPlan K my f) rfl rfl rfl hlong
    rw [exec_bind_ok hexec]
    exact hcomplete

theorem nat64Ingress_allOrNothing_iff :
    AllOrNothing (Complete6 f) f (nat64Ingress K ⟨f, maps⟩) ↔
      ¬ (Tracked maps f ∧ CutShort f 34 (ipv4Protocol f)) := by
  have hdecides : (∃ p, nat64IngressPlan K maps f = .ok (.translate p)) ↔ Tracked maps f := by
    refine ⟨fun ⟨p, hp⟩ => (nat64IngressPlan_iff.mp hp).1, fun h => ?_⟩
    obtain ⟨ct, hct⟩ := h.flow
    exact ⟨_, nat64IngressPlan_iff.mpr ⟨h, ct, hct, rfl⟩⟩
  rw [← hdecides]
  refine allOrNothing_translator_iff ⟨f, maps⟩ (fun p hplan hshort => ?_)
    fun p hplan hlong => ?_
  · obtain ⟨htracked, ct, -, rfl⟩ := nat64IngressPlan_iff.mp hplan
    have hlen : 38 ≤ f.length := htracked.length
    exact toIpv6_cut hL3 hL4 _ (by omega) rfl hshort
  · obtain ⟨htracked, ct, -, rfl⟩ := nat64IngressPlan_iff.mp hplan
    obtain ⟨g, hexec, hcomplete⟩ := toIpv6_exec_complete maps hL3 hL4
      (p := trackedPlan K ct f) rfl rfl rfl hlong
    rw [exec_bind_ok hexec]
    exact hcomplete

theorem siitOut_allOrNothing_iff (my : Globals) :
    AllOrNothing (Complete4 K f) f (siitOut K my ⟨f, maps⟩) ↔
      ¬ (ToPod my f ∧ CutShort f 54 (f.getD 20 0)) := by
  have hdecides : (∃ p, siitOutPlan K my f = .ok (.translate p)) ↔ ToPod my f :=
    ⟨fun ⟨p, hp⟩ => (siitOutPlan_iff.mp hp).1, fun h => ⟨_, siitOutPlan_of_toPod h⟩⟩
  rw [← hdecides]
  refine allOrNothing_translator_iff ⟨f, maps⟩ (fun p hplan hshort => ?_)
    fun p hplan hlong => ?_
  · obtain ⟨hto, rfl⟩ := siitOutPlan_iff.mp hplan
    exact toIpv4_cut hL3 hL4 _ hto.length rfl hshort
  · obtain ⟨hto, rfl⟩ := siitOutPlan_iff.mp hplan
    obtain ⟨g, hexec, hcomplete⟩ := toIpv4_exec_complete maps hL3 hL4
      (p := toPodPlan K my f) rfl rfl rfl rfl rfl hlong
    rw [exec_bind_ok hexec]
    exact hcomplete

theorem nat64Egress_allOrNothing_iff :
    AllOrNothing (Complete4 K f) f (nat64Egress K ⟨f, maps⟩) ↔
      ¬ ((IsNat64Outbound f ∧ ∃ cfg, maps.nat64Config = some cfg) ∧
        CutShort f 54 (f.getD 20 0)) := by
  have hdecides : (∃ p, nat64EgressPlan K maps f = .ok (.translate p)) ↔
      IsNat64Outbound f ∧ ∃ cfg, maps.nat64Config = some cfg := by
    refine ⟨fun ⟨p, hp⟩ => isNat64Outbound_of_plan K hp, fun ⟨h, cfg, hcfg⟩ => ?_⟩
    exact ⟨_, nat64EgressPlan_of_outbound K h hcfg⟩
  rw [← hdecides]
  refine allOrNothing_translator_iff ⟨f, maps⟩ (fun p hplan hshort => ?_)
    fun p hplan hlong => ?_
  · obtain ⟨hout, cfg, -, rfl⟩ := nat64EgressPlan_iff.mp hplan
    have hlen : 58 ≤ f.length := hout.length
    rw [exec_bind_ok (exec_insertConntrack cfg)]
    exact toIpv4_cut hL3 hL4 _ (le_trans (by decide) hlen) rfl hshort
  · obtain ⟨hout, cfg, -, rfl⟩ := nat64EgressPlan_iff.mp hplan
    have hdst6 : (outboundPlan K cfg f).packet.dstV6 = addrWords K (ipv6Dst f) := by
      rw [hout.dst, addrWords_nat64Addr]
      rfl
    obtain ⟨g, hexec, hcomplete⟩ := toIpv4_exec_complete (track maps f) hL3 hL4
      (p := (outboundPlan K cfg f).packet) rfl rfl hdst6 rfl rfl hlong
    rw [exec_bind_ok (exec_insertConntrack cfg), exec_bind_ok hexec]
    exact hcomplete

end Programs

/-- **All or nothing, but for frames cut short.**  For each of the four translators, a frame that
continues is untouched or completely translated exactly if the program does not decide to
translate a frame that ends before its L4 checksum does. -/
theorem all_or_nothing_iff (K : Kernel) (hL3 : K.ResizesL3) (hL4 : K.UpdatesL4Csum) (my : Globals)
    (maps : Maps) (f : Frame) :
    (AllOrNothing (Complete6 f) f (siitIn K my ⟨f, maps⟩) ↔
        ¬ (FromPod my f ∧ CutShort f 34 (ipv4Protocol f))) ∧
      (AllOrNothing (Complete4 K f) f (siitOut K my ⟨f, maps⟩) ↔
        ¬ (ToPod my f ∧ CutShort f 54 (f.getD 20 0))) ∧
      (AllOrNothing (Complete4 K f) f (nat64Egress K ⟨f, maps⟩) ↔
        ¬ ((IsNat64Outbound f ∧ ∃ cfg, maps.nat64Config = some cfg) ∧
          CutShort f 54 (f.getD 20 0))) ∧
      (AllOrNothing (Complete6 f) f (nat64Ingress K ⟨f, maps⟩) ↔
        ¬ (Tracked maps f ∧ CutShort f 34 (ipv4Protocol f))) :=
  ⟨siitIn_allOrNothing_iff hL3 hL4 my, siitOut_allOrNothing_iff hL3 hL4 my,
    nat64Egress_allOrNothing_iff hL3 hL4, nat64Ingress_allOrNothing_iff hL3 hL4⟩

/-! ## A frame cut short -/

/-- The datagram of `udpFrame`, less the last two bytes of its UDP header. -/
def cutFrame : Frame := udpFrame.take 40

/-- It continues with an IPv6 header and the checksum of an IPv4 datagram. -/
theorem cutFrame_half_translated :
    (siitIn (.linux .little) (podGlobals 5 (.ofOctets 10 0 0 1)) ⟨cutFrame, {}⟩).1 ≠ .shot ∧
      (siitIn (.linux .little) (podGlobals 5 (.ofOctets 10 0 0 1)) ⟨cutFrame, {}⟩).2.frame ≠
        cutFrame ∧
      ¬ Complete6 cutFrame
        (siitIn (.linux .little) (podGlobals 5 (.ofOctets 10 0 0 1)) ⟨cutFrame, {}⟩).2.frame := by
  refine ⟨by decide, by decide, fun h => h.not_cutShort ?_⟩
  decide

/-- The four equivalences at that frame. -/
theorem all_or_nothing_iff_cutFrame :
    ¬ AllOrNothing (Complete6 cutFrame) cutFrame
      (siitIn (.linux .little) (podGlobals 5 (.ofOctets 10 0 0 1)) ⟨cutFrame, {}⟩) :=
  fun hall => (all_or_nothing_iff _ (Kernel.linux_resizesL3 _) (Kernel.linux_updatesL4Csum _)
    (podGlobals 5 (.ofOctets 10 0 0 1)) {} cutFrame).1.mp hall
      ⟨by decide, by decide⟩

end K3rs.Ebpf
