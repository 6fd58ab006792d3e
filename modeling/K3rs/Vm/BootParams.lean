import K3rs.Lib.Words
import K3rs.Vpc.GhostIpv6
import K3rs.Lib.IpRoundTrip

/-!
# Boot parameters on the kernel command line

The host writes the VPC configuration of a VM on the kernel command line, and `k3rs-init` reads it
in the guest; without all seven parameters the guest asks a DHCP server.

There are two writers.  That of `k3rs-vmm` writes all seven, and they are read back
(`parse_vmm_cmdline`).  The Firecracker backend writes five: they are read back too, but the
platform prefix and the cluster id are missing in every configuration
(`firecracker_boot_params_incomplete`).
-/

namespace K3rs

open Net Words

/-! ## Writing -/

/-- A parameter on the command line. -/
def bootParam (key val : String) : String := " " ++ key ++ "=" ++ val

/-- `VpcBootParams` of the Firecracker backend. -/
structure VpcBootParams where
  guestIpv4 : String
  ghostIpv6 : String
  vpcId : UInt16
  vpcCidr : String
  gwMac : String
  deriving DecidableEq, Repr

/-- The parameters that both writers have. -/
def VpcBootParams.args (vpc : VpcBootParams) : String :=
  bootParam "k3rs.ipv4" vpc.guestIpv4 ++ bootParam "k3rs.ipv6" vpc.ghostIpv6 ++
    bootParam "k3rs.vpc_id" (toString vpc.vpcId.toNat) ++ bootParam "k3rs.vpc_cidr" vpc.vpcCidr ++
    bootParam "k3rs.gw_mac" vpc.gwMac

namespace Firecracker

/-- `FcNetworkManager::guest_ip`. -/
def guestIp (vmIndex : UInt32) : String := "172.16." ++ toString vmIndex.toNat ++ ".2"

/-- `FcNetworkManager::host_ip`. -/
def hostIp (vmIndex : UInt32) : String := "172.16." ++ toString vmIndex.toNat ++ ".1"

/-- The arguments that all VMs have. -/
def baseArgs : String :=
  "console=ttyS0 reboot=k panic=1 pci=off root=/dev/vda rw init=/sbin/k3rs-init"

/-- The boot arguments of a VM. -/
def bootArgs (vpcParams : Option VpcBootParams) (tapName : Option String) (guestCid : UInt32) :
    String :=
  let extraArgs :=
    match vpcParams, tapName with
    | some vpc, _ => vpc.args
    -- VMs without a VPC use the kernel's `ip=`
    | none, some _ => bootParam "ip"
        (guestIp guestCid ++ "::" ++ hostIp guestCid ++ ":255.255.255.252::eth0:off")
    | none, none => ""
  baseArgs ++ extraArgs

end Firecracker

namespace Vmm

/-- The arguments that all VMs have. -/
def baseArgs (initrdPath : Option String) : String :=
  if initrdPath.isSome then "console=hvc0 rdinit=/sbin/k3rs-init rw loglevel=7"
  else "console=hvc0 root=virtiofs:rootfs rw rootwait init=/sbin/k3rs-init loglevel=7"

/-- The command line of a VM, with the platform prefix and the cluster id in force. -/
def cmdline (initrdPath : Option String) (vpc : Option (VpcBootParams × UInt32 × UInt32)) : String :=
  match vpc with
  | none => baseArgs initrdPath
  | some (vpc, platformPrefix, clusterId) =>
      baseArgs initrdPath ++ vpc.args ++
        bootParam "k3rs.platform_prefix" (hexPadded 10 platformPrefix.toNat) ++
        bootParam "k3rs.cluster_id" (toString clusterId.toNat)

end Vmm

/-! ## Reading -/

/-- `K3rsBootParams`. -/
structure K3rsBootParams where
  ipv4 : Option String := none
  ipv6 : Option String := none
  vpcId : Option UInt16 := none
  vpcCidr : Option String := none
  gwMac : Option String := none
  platformPrefix : Option UInt32 := none
  clusterId : Option UInt32 := none
  deriving DecidableEq, Repr

/-- `is_complete`. -/
def K3rsBootParams.isComplete (params : K3rsBootParams) : Bool :=
  params.ipv4.isSome && params.ipv6.isSome && params.vpcId.isSome && params.vpcCidr.isSome &&
    params.gwMac.isSome && params.platformPrefix.isSome && params.clusterId.isSome

/-- `from_str_radix` for an unsigned integer below `bound`; a leading `+` is accepted. -/
def fromStrRadix (radix bound : ℕ) (text : List Char) : Option ℕ :=
  let digits := if text.head? = some '+' then text.tail else text
  if digits ≠ [] ∧ digits.all (fun c => (toDigit radix c).isSome) ∧ digitsValue radix digits < bound
  then some (digitsValue radix digits)
  else none

/-- `trim_start_matches("0x")`. -/
def trimHexMark : List Char → List Char
  | '0' :: 'x' :: rest => trimHexMark rest
  | text => text

/-- The assignment of one parameter. -/
def K3rsBootParams.set (params : K3rsBootParams) (key val : String) : K3rsBootParams :=
  match key with
  | "k3rs.ipv4" => { params with ipv4 := some val }
  | "k3rs.ipv6" => { params with ipv6 := some val }
  | "k3rs.vpc_id" =>
      { params with vpcId := (fromStrRadix 10 (2 ^ 16) val.toList).map UInt16.ofNat }
  | "k3rs.vpc_cidr" => { params with vpcCidr := some val }
  | "k3rs.gw_mac" => { params with gwMac := some val }
  | "k3rs.platform_prefix" =>
      { params with
        platformPrefix := (fromStrRadix 16 (2 ^ 32) (trimHexMark val.toList)).map UInt32.ofNat }
  | "k3rs.cluster_id" =>
      { params with clusterId := (fromStrRadix 10 (2 ^ 32) val.toList).map UInt32.ofNat }
  | _ => params

/-- One token of the command line. -/
def K3rsBootParams.read (params : K3rsBootParams) (token : List Char) : K3rsBootParams :=
  match splitOnce '=' token with
  | some (key, val) => params.set (String.ofList key) (String.ofList val)
  | none => params

/-- `parse_cmdline`. -/
def parseCmdline (cmdline : String) : K3rsBootParams :=
  (splitWhitespace cmdline.toList).foldl K3rsBootParams.read {}

/-- `has_kernel_ip_param`. -/
def hasKernelIpParam (cmdline : String) : Bool :=
  (splitWhitespace cmdline.toList).any fun token => "ip=".toList.isPrefixOf token

/-- How the guest gets its addresses. -/
inductive GuestNetwork where
  | vpc (params : K3rsBootParams)
  | kernelIp
  | dhcp
  deriving DecidableEq, Repr

/-- The decision of `setup_networking`. -/
def setupNetworking (cmdline : String) : GuestNetwork :=
  let params := parseCmdline cmdline
  if params.isComplete then .vpc params
  else if hasKernelIpParam cmdline then .kernelIp
  else .dhcp

/-! ## Reading what was written -/

/-- The key of a parameter has neither white space nor a `=`. -/
def IsBootKey (key : String) : Prop := Blankless key.toList ∧ '=' ∉ key.toList

instance (key : String) : Decidable (IsBootKey key) := inferInstanceAs (Decidable (_ ∧ _))

/-- A key and a value after a blank are one token. -/
theorem splitWhitespace_bootParam (text : String) {key val : String} (hkey : IsBootKey key)
    (hval : Blankless val.toList) :
    splitWhitespace (text ++ bootParam key val).toList =
      splitWhitespace text.toList ++ [key.toList ++ '=' :: val.toList] := by
  have htext : (text ++ bootParam key val).toList =
      text.toList ++ ' ' :: (key.toList ++ '=' :: val.toList) := by
    simp only [bootParam, String.toList_append, List.append_assoc]
    rfl
  rw [htext]
  refine splitWhitespace_append_word _ (by simp) ?_
  rw [blankless_append, blankless_cons]
  exact ⟨hkey.1, by decide, hval⟩

/-- It is assigned to what the text in front of it gives. -/
theorem parseCmdline_bootParam (text : String) {key val : String} (hkey : IsBootKey key)
    (hval : Blankless val.toList) :
    parseCmdline (text ++ bootParam key val) = (parseCmdline text).set key val := by
  rw [parseCmdline, splitWhitespace_bootParam text hkey hval, List.foldl_append, List.foldl_cons,
    List.foldl_nil, K3rsBootParams.read, splitOnce_append hkey.2]
  simp only [String.ofList_toList]
  rfl

/-! ### Numbers -/

theorem toDigit_plus (radix : ℕ) : toDigit radix '+' = none := by
  rw [toDigit, if_neg (by decide), if_neg (by decide), if_neg (by decide)]
  rfl

theorem digitsValue_zeros {radix : ℕ} (h1 : 1 < radix) (h16 : radix ≤ 16) (zeros : ℕ)
    (digits : List Char) :
    digitsValue radix (List.replicate zeros '0' ++ digits) = digitsValue radix digits := by
  have hzero : toDigit radix (Nat.digitChar 0) = some 0 := toDigit_digitChar h16 (by omega)
  induction zeros with
  | zero => rfl
  | succ zeros ih =>
      rw [← ih, List.replicate_succ, List.cons_append, digitsValue, List.foldl_cons,
        show '0' = Nat.digitChar 0 from rfl, hzero, Option.getD_some, Nat.zero_mul]
      rfl

/-- A number with zeros in front of it consists of digits. -/
theorem isSome_toDigit_of_mem {radix n zeros : ℕ} (h1 : 1 < radix) (h16 : radix ≤ 16) {c : Char}
    (hc : c ∈ List.replicate zeros '0' ++ Nat.toDigits radix n) : (toDigit radix c).isSome = true := by
  rcases List.mem_append.mp hc with hc | hc
  · rw [List.eq_of_mem_replicate hc, show '0' = Nat.digitChar 0 from rfl,
      toDigit_digitChar h16 (by omega)]
    rfl
  · exact (toDigits_spec h1 h16 n).1 c hc

/-- It is read back. -/
theorem fromStrRadix_digits {radix bound n : ℕ} (zeros : ℕ) (h1 : 1 < radix) (h16 : radix ≤ 16)
    (hn : n < bound) :
    fromStrRadix radix bound (List.replicate zeros '0' ++ Nat.toDigits radix n) = some n := by
  have hvalue : digitsValue radix (List.replicate zeros '0' ++ Nat.toDigits radix n) = n := by
    rw [digitsValue_zeros h1 h16, (toDigits_spec h1 h16 n).2]
  have hhead : (List.replicate zeros '0' ++ Nat.toDigits radix n).head? ≠ some '+' := by
    intro hplus
    have hdigit := isSome_toDigit_of_mem h1 h16 (List.mem_of_head? hplus)
    rw [toDigit_plus] at hdigit
    exact Bool.false_ne_true hdigit
  have hne : List.replicate zeros '0' ++ Nat.toDigits radix n ≠ [] := by
    rw [Ne, List.append_eq_nil_iff]
    exact fun h => Nat.toDigits_ne_nil h.2
  rw [fromStrRadix, if_neg hhead,
    if_pos ⟨hne, List.all_eq_true.mpr fun c => isSome_toDigit_of_mem h1 h16, hvalue.symm ▸ hn⟩, hvalue]

/-- Only the mark in front is trimmed: what follows are hex digits. -/
theorem trimHexMark_digits {digits : List Char}
    (h : ∀ c ∈ digits, (toDigit 16 c).isSome = true) : trimHexMark ('0' :: 'x' :: digits) = digits := by
  rw [trimHexMark]
  unfold trimHexMark
  split
  · exact absurd (h 'x' (by simp)) (by decide)
  · rfl

theorem blankless_of_digits {radix : ℕ} {digits : List Char}
    (h : ∀ c ∈ digits, (toDigit radix c).isSome = true) : Blankless digits := by
  intro c hc
  have hdigit := h c hc
  have hrange : '0' ≤ c ∧ c ≤ '9' ∨ 'a' ≤ c ∧ c ≤ 'z' ∨ 'A' ≤ c ∧ c ≤ 'Z' := by
    by_contra hnone
    simp only [not_or] at hnone
    rw [toDigit, if_neg hnone.1, if_neg hnone.2.1, if_neg hnone.2.2] at hdigit
    exact Bool.false_ne_true hdigit
  have hle : ∀ {a b : Char}, a ≤ b → a.toNat ≤ b.toNat := fun h => UInt32.le_iff_toNat_le.mp h
  have hletters : 48 ≤ c.toNat ∧ c.toNat ≤ 122 := by
    rcases hrange with ⟨hlo, hhi⟩ | ⟨hlo, hhi⟩ | ⟨hlo, hhi⟩
    all_goals
      have hlo := hle hlo
      have hhi := hle hhi
      simp only [Char.reduceToNat] at hlo hhi
      omega
  simp only [isWhiteSpace, Bool.or_eq_false_iff, Bool.and_eq_false_iff, decide_eq_false_iff_not,
    beq_eq_false_iff_ne]
  omega

theorem toList_toString (n : ℕ) : (toString n).toList = Nat.toDigits 10 n := by
  rw [Nat.toString_eq_repr, Nat.toList_repr]

theorem blankless_toString (n : ℕ) : Blankless (toString n).toList := by
  rw [toList_toString]
  exact blankless_of_digits (toDigits_spec (by decide) (by decide) n).1

/-- A decimal number is read back. -/
theorem fromStrRadix_toString {bound n : ℕ} (hn : n < bound) :
    fromStrRadix 10 bound (toString n).toList = some n := by
  rw [toList_toString]
  exact fromStrRadix_digits 0 (by decide) (by decide) hn

theorem toList_hexPadded (n : ℕ) : ∃ zeros,
    (hexPadded 10 n).toList = '0' :: 'x' :: (List.replicate zeros '0' ++ Nat.toDigits 16 n) := by
  refine ⟨10 - 2 - (Nat.toDigits 16 n).length, ?_⟩
  simp only [hexPadded, String.toList_append, String.toList_ofList]
  rfl

theorem blankless_hexPadded (n : ℕ) : Blankless (hexPadded 10 n).toList := by
  obtain ⟨zeros, htext⟩ := toList_hexPadded n
  rw [htext, blankless_cons, blankless_cons]
  exact ⟨by decide, by decide, blankless_of_digits fun c =>
    isSome_toDigit_of_mem (by decide) (by decide)⟩

/-- A hexadecimal number with its mark is read back. -/
theorem fromStrRadix_hexPadded {bound n : ℕ} (hn : n < bound) :
    fromStrRadix 16 bound (trimHexMark (hexPadded 10 n).toList) = some n := by
  obtain ⟨zeros, htext⟩ := toList_hexPadded n
  rw [htext, trimHexMark_digits fun c => isSome_toDigit_of_mem (by decide) (by decide)]
  exact fromStrRadix_digits zeros (by decide) (by decide) hn

/-! ### Command lines -/

/-- No field has white space. -/
def VpcBootParams.IsBlankless (vpc : VpcBootParams) : Prop :=
  Blankless vpc.guestIpv4.toList ∧ Blankless vpc.ghostIpv6.toList ∧ Blankless vpc.vpcCidr.toList ∧
    Blankless vpc.gwMac.toList

instance (vpc : VpcBootParams) : Decidable vpc.IsBlankless :=
  inferInstanceAs (Decidable (_ ∧ _ ∧ _ ∧ _))

/-- The parameters that stand for a configuration, with what is known of the platform prefix and
the cluster id. -/
def VpcBootParams.params (vpc : VpcBootParams) (platformPrefix clusterId : Option UInt32) :
    K3rsBootParams :=
  ⟨some vpc.guestIpv4, some vpc.ghostIpv6, some vpc.vpcId, some vpc.vpcCidr, some vpc.gwMac,
    platformPrefix, clusterId⟩

/-- The five parameters are read back, whatever stands in front of them. -/
theorem parseCmdline_args {vpc : VpcBootParams} (h : vpc.IsBlankless) {text : String}
    (htext : parseCmdline text = {}) : parseCmdline (text ++ vpc.args) = vpc.params none none := by
  obtain ⟨hipv4, hipv6, hcidr, hmac⟩ := h
  simp only [VpcBootParams.args, ← String.append_assoc]
  rw [parseCmdline_bootParam _ (by decide) hmac,
    parseCmdline_bootParam _ (by decide) hcidr,
    parseCmdline_bootParam _ (by decide) (blankless_toString _),
    parseCmdline_bootParam _ (by decide) hipv6,
    parseCmdline_bootParam _ (by decide) hipv4, htext]
  simp only [K3rsBootParams.set, fromStrRadix_toString (UInt16.toNat_lt _), Option.map_some,
    UInt16.ofNat_toNat]
  rfl

theorem parseCmdline_baseArgs : parseCmdline Firecracker.baseArgs = {} ∧
    ∀ initrdPath, parseCmdline (Vmm.baseArgs initrdPath) = {} := by
  refine ⟨by decide, fun initrdPath => ?_⟩
  cases initrdPath with
  | none => decide
  | some path =>
      show parseCmdline "console=hvc0 rdinit=/sbin/k3rs-init rw loglevel=7" = {}
      decide

/-- What `k3rs-vmm` writes is complete and read back. -/
theorem parse_vmm_cmdline (initrdPath : Option String) {vpc : VpcBootParams} (h : vpc.IsBlankless)
    (platformPrefix clusterId : UInt32) :
    parseCmdline (Vmm.cmdline initrdPath (some (vpc, platformPrefix, clusterId))) =
      vpc.params (some platformPrefix) (some clusterId) := by
  rw [Vmm.cmdline, parseCmdline_bootParam _ (by decide) (blankless_toString _),
    parseCmdline_bootParam _ (by decide) (blankless_hexPadded _),
    parseCmdline_args h (parseCmdline_baseArgs.2 initrdPath)]
  simp only [K3rsBootParams.set, fromStrRadix_toString (UInt32.toNat_lt _),
    fromStrRadix_hexPadded (UInt32.toNat_lt _), Option.map_some, UInt32.ofNat_toNat]
  rfl

/-- What Firecracker VMs read. -/
theorem parse_firecracker_bootArgs {vpc : VpcBootParams} (h : vpc.IsBlankless)
    (tapName : Option String) (guestCid : UInt32) :
    parseCmdline (Firecracker.bootArgs (some vpc) tapName guestCid) = vpc.params none none :=
  parseCmdline_args h parseCmdline_baseArgs.1

/-! ### Fallbacks -/

theorem hasKernelIpParam_bootParam (text : String) {key val : String} (hkey : IsBootKey key)
    (hval : Blankless val.toList) : hasKernelIpParam (text ++ bootParam key val) =
      (hasKernelIpParam text || "ip=".toList.isPrefixOf (key.toList ++ '=' :: val.toList)) := by
  rw [hasKernelIpParam, splitWhitespace_bootParam text hkey hval, List.any_append, List.any_cons,
    List.any_nil, Bool.or_false]
  rfl

/-- With a VPC configuration a Firecracker VM always asks for a DHCP lease. -/
theorem setupNetworking_firecracker {vpc : VpcBootParams} (h : vpc.IsBlankless)
    (tapName : Option String) (guestCid : UInt32) :
    setupNetworking (Firecracker.bootArgs (some vpc) tapName guestCid) = .dhcp := by
  have hkernelIp : hasKernelIpParam (Firecracker.bootArgs (some vpc) tapName guestCid) = false := by
    obtain ⟨hipv4, hipv6, hcidr, hmac⟩ := h
    simp only [Firecracker.bootArgs, VpcBootParams.args, ← String.append_assoc]
    rw [hasKernelIpParam_bootParam _ (by decide) hmac,
      hasKernelIpParam_bootParam _ (by decide) hcidr,
      hasKernelIpParam_bootParam _ (by decide) (blankless_toString _),
      hasKernelIpParam_bootParam _ (by decide) hipv6,
      hasKernelIpParam_bootParam _ (by decide) hipv4,
      show hasKernelIpParam Firecracker.baseArgs = false by decide]
    rfl
  rw [setupNetworking, parse_firecracker_bootArgs h, hkernelIp]
  rfl

/-- With the command line of `k3rs-vmm` it uses its configuration. -/
theorem setupNetworking_vmm (initrdPath : Option String) {vpc : VpcBootParams} (h : vpc.IsBlankless)
    (platformPrefix clusterId : UInt32) :
    setupNetworking (Vmm.cmdline initrdPath (some (vpc, platformPrefix, clusterId))) =
      .vpc (vpc.params (some platformPrefix) (some clusterId)) := by
  rw [setupNetworking, parse_vmm_cmdline initrdPath h]
  rfl

/-! ## Complete configurations -/

/-- The parameters are complete and are those of the configuration. -/
def K3rsBootParams.Restores (params : K3rsBootParams) (vpc : VpcBootParams)
    (platformPrefix clusterId : UInt32) : Prop :=
  params.isComplete = true ∧ params = vpc.params (some platformPrefix) (some clusterId)

theorem not_restores_firecracker {vpc : VpcBootParams} (h : vpc.IsBlankless)
    (platformPrefix clusterId : UInt32) (tapName : Option String) (guestCid : UInt32) :
    ¬(parseCmdline (Firecracker.bootArgs (some vpc) tapName guestCid)).Restores vpc platformPrefix
      clusterId := by
  intro hrestores
  have hcomplete := hrestores.1
  rw [parse_firecracker_bootArgs h] at hcomplete
  exact Bool.false_ne_true hcomplete

/-- **Firecracker VMs never get a complete configuration**: five parameters are read back as they
are, the platform prefix and the cluster id are missing. -/
theorem firecracker_boot_params_incomplete (vpc : VpcBootParams) (h : vpc.IsBlankless)
    (platformPrefix clusterId : UInt32) (tapName : Option String) (guestCid : UInt32) :
    ¬(parseCmdline (Firecracker.bootArgs (some vpc) tapName guestCid)).Restores vpc platformPrefix
        clusterId ∧
      parseCmdline (Firecracker.bootArgs (some vpc) tapName guestCid) =
        ⟨some vpc.guestIpv4, some vpc.ghostIpv6, some vpc.vpcId, some vpc.vpcCidr, some vpc.gwMac,
          none, none⟩ := by
  exact ⟨not_restores_firecracker h platformPrefix clusterId tapName guestCid,
    parse_firecracker_bootArgs h tapName guestCid⟩

/-- The configuration of a pod. -/
def podConfig : VpcBootParams := ⟨"10.0.1.10", "fd6b:3372::1", 42, "10.0.1.0/24", "02:fc:00:00:00:01"⟩

theorem firecracker_boot_params_incomplete_podConfig :
    parseCmdline (Firecracker.bootArgs (some podConfig) (some "tap0") 3) =
      ⟨some "10.0.1.10", some "fd6b:3372::1", some 42, some "10.0.1.0/24", some "02:fc:00:00:00:01",
        none, none⟩ :=
  (firecracker_boot_params_incomplete podConfig (by decide) PLATFORM_PREFIX 1 (some "tap0") 3).2

/-- The same configuration through both writers. -/
theorem firecracker_boot_params_lost :
    ¬(parseCmdline (Firecracker.bootArgs (some podConfig) (some "tap0") 3)).Restores podConfig
        PLATFORM_PREFIX 1 ∧
      (parseCmdline (Vmm.cmdline none (some (podConfig, PLATFORM_PREFIX, 1)))).Restores podConfig
        PLATFORM_PREFIX 1 ∧
      setupNetworking (Firecracker.bootArgs (some podConfig) (some "tap0") 3) = .dhcp := by
  have hblankless : podConfig.IsBlankless := by decide
  refine ⟨not_restores_firecracker hblankless PLATFORM_PREFIX 1 (some "tap0") 3,
    ⟨?_, parse_vmm_cmdline none hblankless PLATFORM_PREFIX 1⟩,
    setupNetworking_firecracker hblankless (some "tap0") 3⟩
  rw [parse_vmm_cmdline none hblankless PLATFORM_PREFIX 1]
  rfl

end K3rs
