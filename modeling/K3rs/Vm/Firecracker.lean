import K3rs.Lib.Transition
import K3rs.Vm.BootParams
import Mathlib.Data.List.AList

/-!
# Identities of Firecracker VMs

`FirecrackerBackend` numbers its VMs with a counter.  The number is the guest CID of a VM, and also
an octet of the address of its TAP device.  VMs outlive the agent, but the counter and the numbers
of the VMs do not: after a restart the counter begins anew, and a running VM that is restored from
its PID file gets the number 0.

The running VMs have different CIDs and subnets, their addresses are valid and the counter does not
overflow, in every state of a run, if and only if no step of the run takes a number that is in use
or too large (`identities_iff`).
-/

namespace K3rs

open Net Transition

/-! ## The host -/

/-- `FcVmState`. -/
inductive FcVmState where
  | created
  | running
  | stopped
  deriving DecidableEq, Repr

/-- `FcInstance`, as far as it concerns the process and the network of a VM. -/
structure FcInstance where
  fcPid : Option ℕ
  tapName : Option String
  state : FcVmState
  guestCid : UInt32
  deriving DecidableEq, Repr

/-- A Firecracker process, and the number of the subnet that it was booted with. -/
structure FcProcess where
  pid : ℕ
  id : String
  subnet : Option UInt32
  deriving DecidableEq, Repr

/-- The host: the memory of the backend, the PID files, the processes, and the TAP devices by name,
each with the number in an address that it was assigned. -/
structure FcHost where
  instances : AList fun _ : String => FcInstance
  nextCid : UInt32
  /-- The counter has overflowed. -/
  overflowed : Bool
  pidFiles : AList fun _ : String => ℕ
  processes : List FcProcess
  taps : List (String × UInt32)

/-- How far a start gets. -/
structure StartOutcome where
  /-- The process, if it can be spawned. -/
  pid : Option ℕ
  pidFileWritten : Bool
  socketAppears : Bool
  tapCreated : Bool
  booted : Bool
  deriving DecidableEq, Repr

namespace Firecracker

/-- `FC_GUEST_CID`. -/
def FC_GUEST_CID : UInt32 := 3

/-- The name of the TAP device of a VM. -/
def tapNameOf (id : String) : String := "tap-" ++ String.ofList (id.toList.take 8)

end Firecracker

namespace FcHost

open Firecracker

/-- A host without VMs. -/
def new : FcHost := ⟨∅, FC_GUEST_CID, false, ∅, [], []⟩

variable (h : FcHost)

/-- `kill(pid, 0)`. -/
def alive (pid : ℕ) : Bool := h.processes.any fun p => decide (p.pid = pid)

/-- `create` and `create_from_image`; without a log file the number is lost. -/
def create (id : String) (logged : Bool) : FcHost :=
  { h with
    nextCid := h.nextCid + 1
    overflowed := h.overflowed || decide (h.nextCid = 0xffffffff)
    instances :=
      if logged then h.instances.insert id ⟨none, none, .created, h.nextCid⟩ else h.instances }

/-- `start`.  The number of a process that is alive is not given to a new one. -/
def start (id : String) (o : StartOutcome) : FcHost :=
  match h.instances.lookup id, o.pid with
  | some inst, some pid =>
      if h.alive pid then h
      else
        let tap := o.socketAppears && o.tapCreated
        { h with
          pidFiles := if o.pidFileWritten then h.pidFiles.insert id pid else h.pidFiles
          processes := ⟨pid, id, if tap then some inst.guestCid else none⟩ :: h.processes
          taps := if tap then (tapNameOf id, inst.guestCid) :: h.taps else h.taps
          instances :=
            if o.socketAppears && o.booted then
              h.instances.insert id { inst with
                state := .running
                fcPid := some pid
                tapName := if tap then some (tapNameOf id) else none }
            else h.instances }
  | _, _ => h

/-- `stop`.  That a VM shuts down by itself is a step of its own. -/
def stop (id : String) : FcHost :=
  match h.instances.lookup id with
  | none => h
  | some inst =>
      { h with
        processes := h.processes.filter fun p => decide (inst.fcPid ≠ some p.pid)
        taps :=
          if inst.tapName.isSome then h.taps.filter fun t => decide (t.1 ≠ tapNameOf id)
          else h.taps
        pidFiles := h.pidFiles.erase id
        instances := h.instances.insert id { inst with state := .stopped, fcPid := none } }

/-- `delete`. -/
def delete (id : String) : FcHost :=
  { h.stop id with
    instances := (h.stop id).instances.erase id
    pidFiles := (h.stop id).pidFiles.erase id }

/-- The agent is restarted. -/
def restart : FcHost := { h with instances := ∅, nextCid := FC_GUEST_CID }

/-- The instance of a VM that is restored. -/
def restored (pid : ℕ) : FcInstance := ⟨some pid, none, .running, 0⟩

/-- `restore_from_pid_files`, for one PID file. -/
def restoreOne (id : String) : FcHost :=
  match h.pidFiles.lookup id with
  | none => h
  | some pid =>
      if h.alive pid then
        match h.instances.lookup id with
        | some _ => h
        | none => { h with instances := h.instances.insert id (restored pid) }
      else { h with pidFiles := h.pidFiles.erase id }

/-- `restore_from_pid_files`. -/
def restoreFromPidFiles : FcHost := h.pidFiles.keys.foldl restoreOne h

/-- A process ends by itself. -/
def exit (pid : ℕ) : FcHost :=
  { h with processes := h.processes.filter fun p => decide (p.pid ≠ pid) }

end FcHost

/-- What happens on the host. -/
inductive FcStep where
  | create (id : String) (logged : Bool)
  | start (id : String) (o : StartOutcome)
  | stop (id : String)
  | delete (id : String)
  | restart
  /-- `list` restores VMs. -/
  | list
  | exit (pid : ℕ)
  deriving DecidableEq, Repr

namespace FcHost

open Firecracker

/-- One step. -/
def step (h : FcHost) : FcStep → FcHost
  | .create id logged => h.create id logged
  | .start id o => h.start id o
  | .stop id => h.stop id
  | .delete id => h.delete id
  | .restart => h.restart
  | .list => h.restoreFromPidFiles
  | .exit pid => h.exit pid

/-! ## Addresses -/

/-- The address of a TAP device is valid. -/
def IsValid (n : UInt32) : Prop := (parseIpv4 (hostIp n).toList).isSome = true

theorem toList_hostIp (n : UInt32) : (hostIp n).toList =
    Nat.toDigits 10 (172 : UInt8).toNat ++ '.' :: (Nat.toDigits 10 (16 : UInt8).toNat ++ '.' ::
      (Nat.toDigits 10 n.toNat ++ '.' :: Nat.toDigits 10 (1 : UInt8).toNat)) := by
  have hfront : "172.16.".toList = Nat.toDigits 10 (172 : UInt8).toNat ++ '.' ::
      (Nat.toDigits 10 (16 : UInt8).toNat ++ ['.']) := by decide
  rw [hostIp, String.toList_append, String.toList_append, hfront]
  simp
  rfl

/-- The number has to be an octet. -/
theorem isValid_iff {n : UInt32} : IsValid n ↔ n ≤ 255 := by
  have hle : n ≤ 255 ↔ n.toNat < 256 := by
    rw [UInt32.le_iff_toNat_le]
    exact Nat.lt_succ_iff.symm
  rw [IsValid, hle]
  by_cases hn : n.toNat < 256
  · have htext : hostIp n = ipv4ToString (.ofOctets 172 16 (UInt8.ofNat n.toNat) 1) := by
      apply String.toList_injective
      rw [toList_hostIp, toList_ipv4ToString]
      simp [Ipv4Addr.ofOctets, Nat.mod_eq_of_lt hn]
    rw [htext, parseIpv4_ipv4ToString]
    exact iff_of_true rfl hn
  · have hread : readIpv4Addr (hostIp n).toList = none := by
      rw [toList_hostIp, readIpv4Addr]
      have hnone : readNumber 10 3 256 false (Nat.toDigits 10 n.toNat ++
          '.' :: Nat.toDigits 10 (1 : UInt8).toNat) = none :=
        readNumber_toDigits_eq_none (by norm_num) (by norm_num) (not_lt.mp hn) (by
          rintro c ⟨⟩
          decide)
      simp only [readNumber_byte_dot, readGivenChar, Option.bind_eq_bind, Option.bind_some, if_true,
        hnone, Option.bind_none]
    refine iff_of_false ?_ hn
    rw [parseIpv4, hread]
    split <;> simp

variable (h : FcHost)

/-! ## The property -/

/-- The running VMs can be told apart by what the backend knows and by their subnets, the addresses
are valid, and the counter has not overflowed. -/
structure Identified : Prop where
  cids : ∀ p ∈ h.processes, ∀ q ∈ h.processes, p.id ≠ q.id → ∀ i ∈ h.instances.lookup p.id,
    ∀ j ∈ h.instances.lookup q.id, i.guestCid ≠ j.guestCid
  subnets : ∀ p ∈ h.processes, ∀ q ∈ h.processes, p.id ≠ q.id → ∀ m ∈ p.subnet, ∀ n ∈ q.subnet, m ≠ n
  addresses : ∀ t ∈ h.taps, IsValid t.2
  counter : h.overflowed = false

/-- No running VM but this one is known by a CID. -/
def OnlyHas (id : String) (cid : UInt32) : Prop :=
  ∀ q ∈ h.processes, q.id ≠ id → ∀ j ∈ h.instances.lookup q.id, j.guestCid ≠ cid

/-- A VM is going to be restored from its PID file. -/
def IsLost (id : String) : Prop :=
  h.instances.lookup id = none ∧ ∃ pid ∈ h.pidFiles.lookup id, h.alive pid = true

instance (id : String) : Decidable (h.IsLost id) := inferInstanceAs (Decidable (_ ∧ _))

/-- The condition on a step.  The counter is not at its end when a VM is created; a VM that is
started has a number that no other running VM is known by or has in its subnet, and that is an
octet; and of the running VMs at most one is known by the number 0 or going to be restored. -/
def Allocates : FcStep → Prop
  | .create _ _ => h.nextCid ≠ 0xffffffff
  | .start id o => ∀ inst ∈ h.instances.lookup id, ∀ pid ∈ o.pid, h.alive pid = false →
      h.OnlyHas id inst.guestCid ∧
        (o.socketAppears = true → o.tapCreated = true → inst.guestCid ≤ 255 ∧
          ∀ q ∈ h.processes, q.id ≠ id → q.subnet ≠ some inst.guestCid)
  | .list => ∀ p ∈ h.processes, h.IsLost p.id → h.OnlyHas p.id 0 ∧
      ∀ q ∈ h.processes, q.id ≠ p.id → ¬h.IsLost q.id
  | _ => True

variable {h}

/-! ## What steps keep -/

/-- Fewer processes and addresses, and CIDs that were known before. -/
theorem Identified.mono {h' : FcHost} (hid : h.Identified)
    (hprocesses : ∀ p ∈ h'.processes, p ∈ h.processes)
    (hinstances : ∀ p ∈ h'.processes, ∀ i' ∈ h'.instances.lookup p.id,
      ∃ i ∈ h.instances.lookup p.id, i.guestCid = i'.guestCid)
    (htaps : ∀ t ∈ h'.taps, t ∈ h.taps) (hcounter : h'.overflowed = h.overflowed) :
    h'.Identified where
  cids p hp q hq hne i' hi' j' hj' := by
    obtain ⟨i, hi, hcid⟩ := hinstances p hp i' hi'
    obtain ⟨j, hj, hcid'⟩ := hinstances q hq j' hj'
    rw [← hcid, ← hcid']
    exact hid.cids p (hprocesses p hp) q (hprocesses q hq) hne i hi j hj
  subnets p hp q hq := hid.subnets p (hprocesses p hp) q (hprocesses q hq)
  addresses t ht := hid.addresses t (htaps t ht)
  counter := hcounter.trans hid.counter

/-- Stopping a VM leaves the CIDs. -/
theorem lookup_stop {id id' : String} {i' : FcInstance}
    (hi' : i' ∈ (h.stop id).instances.lookup id') :
    ∃ i ∈ h.instances.lookup id', i.guestCid = i'.guestCid := by
  rw [FcHost.stop] at hi'
  cases hlookup : h.instances.lookup id with
  | none =>
      rw [hlookup] at hi'
      exact ⟨i', hi', rfl⟩
  | some inst =>
      rw [hlookup] at hi'
      by_cases hid : id' = id
      · subst hid
        rw [AList.lookup_insert, Option.mem_some_iff] at hi'
        exact ⟨inst, hlookup, by rw [← hi']⟩
      · rw [AList.lookup_insert_ne hid] at hi'
        exact ⟨i', hi', rfl⟩

theorem lookup_delete {id id' : String} {i' : FcInstance}
    (hi' : i' ∈ (h.delete id).instances.lookup id') :
    ∃ i ∈ h.instances.lookup id', i.guestCid = i'.guestCid := by
  rw [FcHost.delete] at hi'
  by_cases hid : id' = id
  · subst hid
    rw [AList.lookup_erase] at hi'
    cases hi'
  · rw [AList.lookup_erase_ne hid] at hi'
    exact lookup_stop hi'

theorem stop_keeps (h : FcHost) (id : String) : (∀ p ∈ (h.stop id).processes, p ∈ h.processes) ∧
    (∀ t ∈ (h.stop id).taps, t ∈ h.taps) ∧ (h.stop id).overflowed = h.overflowed ∧
      (h.stop id).nextCid = h.nextCid := by
  rw [FcHost.stop]
  split
  · exact ⟨fun p hp => hp, fun t ht => ht, rfl, rfl⟩
  · refine ⟨fun p hp => List.mem_of_mem_filter hp, fun t ht => ?_, rfl, rfl⟩
    dsimp only at ht
    split_ifs at ht
    · exact List.mem_of_mem_filter ht
    · exact ht

theorem Identified.stop (hid : h.Identified) (id : String) : (h.stop id).Identified := by
  obtain ⟨hprocesses, htaps, hover, -⟩ := h.stop_keeps id
  exact hid.mono hprocesses (fun _ _ i' hi' => lookup_stop hi') htaps hover

theorem Identified.delete (hid : h.Identified) (id : String) : (h.delete id).Identified := by
  obtain ⟨hprocesses, htaps, hover, -⟩ := h.stop_keeps id
  exact hid.mono hprocesses (fun p _ i' hi' => lookup_delete hi') htaps hover

theorem Identified.restart (hid : h.Identified) : h.restart.Identified := by
  refine hid.mono (fun _ hp => hp) (fun _ _ i' hi' => ?_) (fun _ ht => ht) rfl
  rw [FcHost.restart, AList.lookup_empty] at hi'
  cases hi'

theorem Identified.exit (hid : h.Identified) (pid : ℕ) : (h.exit pid).Identified :=
  hid.mono (fun _ hp => List.mem_of_mem_filter hp) (fun _ _ i' hi' => ⟨i', hi', rfl⟩)
    (fun _ ht => ht) rfl

/-! ## Restoring -/

theorem restoreOne_keeps (h : FcHost) (id : String) : (h.restoreOne id).processes = h.processes ∧
    (h.restoreOne id).taps = h.taps ∧ (h.restoreOne id).overflowed = h.overflowed ∧
      (h.restoreOne id).nextCid = h.nextCid := by
  rw [restoreOne]
  split
  · exact ⟨rfl, rfl, rfl, rfl⟩
  · split_ifs
    · split <;> exact ⟨rfl, rfl, rfl, rfl⟩
    · exact ⟨rfl, rfl, rfl, rfl⟩

theorem lookup_restoreOne_of_ne {id id' : String} (hne : id' ≠ id) :
    (h.restoreOne id).instances.lookup id' = h.instances.lookup id' ∧
      (h.restoreOne id).pidFiles.lookup id' = h.pidFiles.lookup id' := by
  rw [restoreOne]
  split
  · exact ⟨rfl, rfl⟩
  · split_ifs
    · split
      · exact ⟨rfl, rfl⟩
      · exact ⟨AList.lookup_insert_ne hne, rfl⟩
    · exact ⟨rfl, AList.lookup_erase_ne hne⟩

theorem lookup_restoreOne_self (h : FcHost) (id : String) :
    (h.restoreOne id).instances.lookup id =
      if h.IsLost id then (h.pidFiles.lookup id).map restored else h.instances.lookup id := by
  rw [restoreOne]
  cases hpid : h.pidFiles.lookup id with
  | none => simp [IsLost, hpid]
  | some pid =>
      cases halive : h.alive pid with
      | false => simp [IsLost, hpid, halive]
      | true =>
          cases hinst : h.instances.lookup id with
          | none => simp [IsLost, hpid, halive, hinst]
          | some inst => simp [IsLost, halive, hinst]

theorem alive_congr {h' : FcHost} (hsame : h'.processes = h.processes) (pid : ℕ) :
    h'.alive pid = h.alive pid := by
  rw [alive, alive, hsame]

theorem restoreAll_spec {ids : List String} (hnodup : ids.Nodup) :
    (ids.foldl restoreOne h).processes = h.processes ∧ (ids.foldl restoreOne h).taps = h.taps ∧
      (ids.foldl restoreOne h).overflowed = h.overflowed ∧
      (ids.foldl restoreOne h).nextCid = h.nextCid ∧
      ∀ id, (ids.foldl restoreOne h).instances.lookup id =
        if id ∈ ids ∧ h.IsLost id then (h.pidFiles.lookup id).map restored
        else h.instances.lookup id := by
  induction ids generalizing h with
  | nil => simp
  | cons id ids ih =>
      obtain ⟨hnotMem, hnodup⟩ := List.nodup_cons.mp hnodup
      obtain ⟨hprocesses, htaps, hover, hnext, hlookup⟩ := ih (h := h.restoreOne id) hnodup
      obtain ⟨hprocesses', htaps', hover', hnext'⟩ := h.restoreOne_keeps id
      refine ⟨hprocesses.trans hprocesses', htaps.trans htaps', hover.trans hover',
        hnext.trans hnext', fun id' => ?_⟩
      rw [List.foldl_cons, hlookup]
      by_cases hid : id' = id
      · subst hid
        rw [if_neg fun h => hnotMem h.1, lookup_restoreOne_self]
        simp only [List.mem_cons_self, true_and]
      · obtain ⟨hinstances, hpids⟩ := lookup_restoreOne_of_ne (h := h) hid
        simp only [IsLost, hinstances, hpids, alive_congr hprocesses', List.mem_cons, hid, false_or]

/-- **What `list` restores.** -/
theorem lookup_restoreFromPidFiles (h : FcHost) (id : String) :
    h.restoreFromPidFiles.instances.lookup id =
      if h.IsLost id then (h.pidFiles.lookup id).map restored else h.instances.lookup id := by
  rw [restoreFromPidFiles, (restoreAll_spec h.pidFiles.keys_nodup).2.2.2.2]
  refine if_congr (and_iff_right_of_imp ?_) rfl rfl
  rintro ⟨-, pid, hpid, -⟩
  exact AList.mem_keys.mp (AList.lookup_isSome.mp (Option.isSome_of_eq_some hpid))

theorem lookup_of_lost {id : String} (hlost : h.IsLost id) :
    ∃ i ∈ h.restoreFromPidFiles.instances.lookup id, i.guestCid = 0 := by
  have hrestored := h.lookup_restoreFromPidFiles id
  rw [if_pos hlost] at hrestored
  obtain ⟨-, pid, hpid, -⟩ := hlost
  refine ⟨restored pid, ?_, rfl⟩
  rw [hrestored, hpid]
  rfl

/-- A running VM is known by the CID it had, or it was lost and is known by 0. -/
theorem cid_of_restored {id : String} {i : FcInstance}
    (hi : i ∈ h.restoreFromPidFiles.instances.lookup id) :
    i ∈ h.instances.lookup id ∨ h.IsLost id ∧ i.guestCid = 0 := by
  rw [lookup_restoreFromPidFiles] at hi
  split_ifs at hi with hlost
  · obtain ⟨pid, -, rfl⟩ := Option.map_eq_some_iff.mp hi
    exact Or.inr ⟨hlost, rfl⟩
  · exact Or.inl hi

theorem lookup_of_known {id : String} {i : FcInstance} (hi : i ∈ h.instances.lookup id) :
    i ∈ h.restoreFromPidFiles.instances.lookup id := by
  rw [lookup_restoreFromPidFiles, if_neg]
  · exact hi
  · rintro ⟨hnone, -⟩
    rw [Option.mem_def, hnone] at hi
    cases hi

/-- **Restoring** keeps the VMs apart if at most one of them gets the number 0. -/
theorem identified_list_iff (hid : h.Identified) :
    h.restoreFromPidFiles.Identified ↔ h.Allocates .list := by
  obtain ⟨hprocesses, htaps, hover, -, -⟩ := restoreAll_spec (h := h) h.pidFiles.keys_nodup
  constructor
  · intro hafter p hp hlost
    obtain ⟨i, hi, hzero⟩ := lookup_of_lost hlost
    have hother : ∀ q ∈ h.processes, q.id ≠ p.id →
        ∀ j ∈ h.restoreFromPidFiles.instances.lookup q.id, j.guestCid ≠ 0 := by
      intro q hq hne j hj
      rw [← hzero]
      exact hafter.cids q (hprocesses ▸ hq) p (hprocesses ▸ hp) hne j hj i hi
    refine ⟨fun q hq hne j hj => hother q hq hne j (lookup_of_known hj), fun q hq hne hlost' => ?_⟩
    obtain ⟨j, hj, hzero'⟩ := lookup_of_lost hlost'
    exact hother q hq hne j hj hzero'
  · intro hok
    refine ⟨fun p hp q hq hne i hi j hj => ?_, ?_, ?_, hover.trans hid.counter⟩
    · rw [restoreFromPidFiles, hprocesses] at hp hq
      rcases cid_of_restored hi with hi | ⟨hlost, hzero⟩
      · rcases cid_of_restored hj with hj | ⟨hlost', hzero'⟩
        · exact hid.cids p hp q hq hne i hi j hj
        · rw [hzero']
          exact (hok q hq hlost').1 p hp hne i hi
      · rcases cid_of_restored hj with hj | ⟨hlost', -⟩
        · rw [hzero]
          exact ((hok p hp hlost).1 q hq hne.symm j hj).symm
        · exact absurd hlost' ((hok p hp hlost).2 q hq hne.symm)
    · rw [restoreFromPidFiles, hprocesses]
      exact hid.subnets
    · rw [restoreFromPidFiles, htaps]
      exact hid.addresses

/-! ## The counter -/

/-- Unless the counter has overflowed, it is above all CIDs. -/
def Counts (h : FcHost) : Prop :=
  h.overflowed = true ∨ 0 < h.nextCid ∧
    ∀ id, ∀ i ∈ h.instances.lookup id, i.guestCid < h.nextCid

theorem Counts.create (hcounts : h.Counts) (id : String) (logged : Bool) :
    (h.create id logged).Counts := by
  by_cases hmax : h.nextCid = 0xffffffff
  · exact Or.inl (by simp [FcHost.create, hmax])
  · refine hcounts.imp (fun hover => by simp [FcHost.create, hover]) ?_
    rintro ⟨-, hbelow⟩
    have hnext : (h.nextCid + 1).toNat = h.nextCid.toNat + 1 := by
      have hne : h.nextCid.toNat ≠ 2 ^ 32 - 1 := fun heq => hmax (UInt32.toNat_inj.mp heq)
      have hlt := h.nextCid.toNat_lt
      rw [UInt32.toNat_add, UInt32.toNat_one, Nat.mod_eq_of_lt]
      omega
    have hlt : h.nextCid < h.nextCid + 1 := by
      rw [UInt32.lt_iff_toNat_lt, hnext]
      exact Nat.lt_succ_self _
    have hpos : (0 : UInt32) < h.nextCid + 1 := by
      rw [UInt32.lt_iff_toNat_lt, hnext]
      exact Nat.succ_pos _
    refine ⟨hpos, fun id' i hi => ?_⟩
    rw [FcHost.create] at hi
    dsimp only at hi
    split_ifs at hi
    · by_cases hid : id' = id
      · subst hid
        rw [AList.lookup_insert, Option.mem_some_iff] at hi
        rw [← hi]
        exact hlt
      · rw [AList.lookup_insert_ne hid] at hi
        exact UInt32.lt_trans (hbelow id' i hi) hlt
    · exact UInt32.lt_trans (hbelow id' i hi) hlt

/-- CIDs that were known before stay below. -/
theorem Counts.mono {h' : FcHost} (hcounts : h.Counts) (hover : h'.overflowed = h.overflowed)
    (hnext : h'.nextCid = h.nextCid)
    (hinstances : ∀ id, ∀ i' ∈ h'.instances.lookup id,
      (∃ i ∈ h.instances.lookup id, i.guestCid = i'.guestCid) ∨ i'.guestCid = 0) : h'.Counts := by
  refine hcounts.imp hover.trans ?_
  rintro ⟨hpos, hbelow⟩
  rw [hnext]
  refine ⟨hpos, fun id i' hi' => ?_⟩
  rcases hinstances id i' hi' with ⟨i, hi, hcid⟩ | hzero
  · rw [← hcid]
    exact hbelow id i hi
  · rw [hzero]
    exact hpos

/-- A process is spawned. -/
theorem start_spawned {id : String} {o : StartOutcome} {inst : FcInstance} {pid : ℕ}
    (hlookup : h.instances.lookup id = some inst) (hpid : o.pid = some pid)
    (halive : h.alive pid = false) :
    (h.start id o).processes = ⟨pid, id, if (o.socketAppears && o.tapCreated) = true then
        some inst.guestCid else none⟩ :: h.processes ∧
      (h.start id o).taps = (if (o.socketAppears && o.tapCreated) = true then
        (tapNameOf id, inst.guestCid) :: h.taps else h.taps) ∧
      (h.start id o).instances = (if (o.socketAppears && o.booted) = true then
        h.instances.insert id ⟨some pid, if (o.socketAppears && o.tapCreated) = true then
          some (tapNameOf id) else none, .running, inst.guestCid⟩ else h.instances) := by
  simp only [FcHost.start, hlookup, hpid, halive, Bool.false_eq_true, if_false, and_self]

/-- No process is spawned. -/
theorem start_not_spawned {id : String} {o : StartOutcome}
    (hnone : ∀ inst ∈ h.instances.lookup id, ∀ pid ∈ o.pid, h.alive pid = true) :
    h.start id o = h := by
  rw [FcHost.start]
  split
  · rename_i inst pid hlookup hpid
    rw [if_pos (hnone inst hlookup pid hpid)]
  · rfl

theorem start_cases (h : FcHost) (id : String) (o : StartOutcome) :
    (∃ inst pid, h.instances.lookup id = some inst ∧ o.pid = some pid ∧ h.alive pid = false) ∨
      ∀ inst ∈ h.instances.lookup id, ∀ pid ∈ o.pid, h.alive pid = true := by
  by_cases hsome : ∃ inst pid, h.instances.lookup id = some inst ∧ o.pid = some pid ∧
      h.alive pid = false
  · exact Or.inl hsome
  · refine Or.inr fun inst hinst pid hpid => ?_
    by_contra halive
    exact hsome ⟨inst, pid, hinst, hpid, Bool.eq_false_iff.mpr halive⟩

theorem start_keeps (h : FcHost) (id : String) (o : StartOutcome) :
    (h.start id o).overflowed = h.overflowed ∧ (h.start id o).nextCid = h.nextCid := by
  rw [FcHost.start]
  split
  · split <;> exact ⟨rfl, rfl⟩
  · exact ⟨rfl, rfl⟩

/-- The instances after a start have the CIDs of those before. -/
theorem lookup_start {id id' : String} {o : StartOutcome} {i' : FcInstance}
    (hi' : i' ∈ (h.start id o).instances.lookup id') :
    ∃ i ∈ h.instances.lookup id', i.guestCid = i'.guestCid := by
  rcases h.start_cases id o with ⟨inst, pid, hlookup, hpid, halive⟩ | hnone
  · rw [(start_spawned hlookup hpid halive).2.2] at hi'
    split at hi'
    · by_cases hid : id' = id
      · subst hid
        rw [AList.lookup_insert, Option.mem_some_iff] at hi'
        exact ⟨inst, hlookup, by rw [← hi']⟩
      · rw [AList.lookup_insert_ne hid] at hi'
        exact ⟨i', hi', rfl⟩
    · exact ⟨i', hi', rfl⟩
  · rw [start_not_spawned hnone] at hi'
    exact ⟨i', hi', rfl⟩

/-- No start makes a CID unknown. -/
theorem exists_lookup_start (id : String) (o : StartOutcome) {id' : String} {i : FcInstance}
    (hi : i ∈ h.instances.lookup id') :
    ∃ i' ∈ (h.start id o).instances.lookup id', i'.guestCid = i.guestCid := by
  rcases h.start_cases id o with ⟨inst, pid, hlookup, hpid, halive⟩ | hnone
  · rw [(start_spawned hlookup hpid halive).2.2]
    split
    · by_cases hid : id' = id
      · subst hid
        rw [AList.lookup_insert]
        refine ⟨_, rfl, ?_⟩
        rw [Option.mem_def, hlookup, Option.some_inj] at hi
        rw [← hi]
      · rw [AList.lookup_insert_ne hid]
        exact ⟨i, hi, rfl⟩
    · exact ⟨i, hi, rfl⟩
  · rw [start_not_spawned hnone]
    exact ⟨i, hi, rfl⟩

theorem Counts.step (hcounts : h.Counts) (i : FcStep) : (h.step i).Counts := by
  cases i with
  | create id logged => exact hcounts.create id logged
  | start id o =>
      obtain ⟨hover, hnext⟩ := h.start_keeps id o
      exact hcounts.mono hover hnext fun id' i' hi' => Or.inl (lookup_start hi')
  | stop id =>
      obtain ⟨-, -, hover, hnext⟩ := h.stop_keeps id
      exact hcounts.mono hover hnext fun id' i' hi' => Or.inl (lookup_stop hi')
  | delete id =>
      obtain ⟨-, -, hover, hnext⟩ := h.stop_keeps id
      exact hcounts.mono hover hnext fun id' i' hi' => Or.inl (lookup_delete hi')
  | restart =>
      refine Or.inr ⟨(by decide : (0 : UInt32) < FC_GUEST_CID), fun id i hi => ?_⟩
      rw [FcHost.step, FcHost.restart, AList.lookup_empty] at hi
      cases hi
  | list =>
      obtain ⟨-, -, hover, hnext, -⟩ := restoreAll_spec (h := h) h.pidFiles.keys_nodup
      refine hcounts.mono hover hnext fun id i' hi' => ?_
      rcases cid_of_restored hi' with hi | ⟨-, hzero⟩
      · exact Or.inl ⟨i', hi, rfl⟩
      · exact Or.inr hzero
  | exit pid => exact hcounts.mono rfl rfl fun id i' hi' => Or.inl ⟨i', hi', rfl⟩

/-! ## Creating and starting -/

/-- **Creating** keeps the VMs apart if the counter is not at its end. -/
theorem identified_create_iff (hcounts : h.Counts) (hid : h.Identified) {id : String}
    {logged : Bool} : (h.create id logged).Identified ↔ h.nextCid ≠ 0xffffffff := by
  constructor
  · intro hafter hmax
    have hover := hafter.counter
    simp [FcHost.create, hmax] at hover
  · intro hmax
    obtain ⟨-, hbelow⟩ := hcounts.resolve_left (by simp [hid.counter])
    -- the number of a new VM is above all others
    have hfresh : ∀ id', ∀ i ∈ (h.create id logged).instances.lookup id',
        i ∈ h.instances.lookup id' ∨ id' = id ∧ i.guestCid = h.nextCid := by
      intro id' i hi
      rw [FcHost.create] at hi
      dsimp only at hi
      split_ifs at hi
      · by_cases hsame : id' = id
        · subst hsame
          rw [AList.lookup_insert, Option.mem_some_iff] at hi
          exact Or.inr ⟨rfl, by rw [← hi]⟩
        · rw [AList.lookup_insert_ne hsame] at hi
          exact Or.inl hi
      · exact Or.inl hi
    refine ⟨fun p hp q hq hne i hi j hj => ?_, hid.subnets, hid.addresses, ?_⟩
    · rcases hfresh p.id i hi with hi | ⟨hp', hcid⟩
      · rcases hfresh q.id j hj with hj | ⟨-, hcid'⟩
        · exact hid.cids p hp q hq hne i hi j hj
        · rw [hcid']
          exact UInt32.ne_of_lt (hbelow p.id i hi)
      · rcases hfresh q.id j hj with hj | ⟨hq', -⟩
        · rw [hcid]
          exact (UInt32.ne_of_lt (hbelow q.id j hj)).symm
        · exact absurd (hp'.trans hq'.symm) hne
    · simp [FcHost.create, hid.counter, hmax]

/-- The process that a start spawns has the CID and the subnet of its VM. -/
theorem identified_spawned_iff (hid : h.Identified) {id : String} {o : StartOutcome}
    {inst : FcInstance} {pid : ℕ} (hlookup : h.instances.lookup id = some inst)
    (hpid : o.pid = some pid) (halive : h.alive pid = false) :
    (h.start id o).Identified ↔ h.OnlyHas id inst.guestCid ∧
      (o.socketAppears = true → o.tapCreated = true → inst.guestCid ≤ 255 ∧
        ∀ q ∈ h.processes, q.id ≠ id → q.subnet ≠ some inst.guestCid) := by
  obtain ⟨hprocesses, htaps, -⟩ := start_spawned hlookup hpid halive
  obtain ⟨vm, hvm, hid', hsubnet⟩ : ∃ vm : FcProcess, (h.start id o).processes = vm :: h.processes ∧
      vm.id = id ∧ vm.subnet = if (o.socketAppears && o.tapCreated) = true then
        some inst.guestCid else none := ⟨_, hprocesses, rfl, rfl⟩
  subst hid'
  have hself : ∀ i' ∈ (h.start vm.id o).instances.lookup vm.id, i'.guestCid = inst.guestCid := by
    intro i' hi'
    obtain ⟨i, hi, hcid⟩ := lookup_start hi'
    rw [Option.mem_def, hlookup, Option.some_inj] at hi
    rw [← hcid, hi]
  constructor
  · rintro ⟨hcids, hsubnets, haddresses, -⟩
    rw [hvm] at hcids hsubnets
    have hmem : vm ∈ vm :: h.processes := List.mem_cons_self
    refine ⟨fun q hq hne j hj => ?_, fun hsocket htap => ?_⟩
    · obtain ⟨j', hj', hcid'⟩ := exists_lookup_start vm.id o hj
      obtain ⟨i', hi', hcid⟩ := exists_lookup_start vm.id o hlookup
      rw [← hcid', ← hcid]
      exact hcids q (List.mem_cons_of_mem _ hq) vm hmem hne j' hj' i' hi'
    · have hboth : (o.socketAppears && o.tapCreated) = true := by rw [hsocket, htap]; rfl
      rw [if_pos hboth] at htaps hsubnet
      rw [htaps] at haddresses
      have hvalid : IsValid inst.guestCid :=
        haddresses (tapNameOf vm.id, inst.guestCid) List.mem_cons_self
      refine ⟨isValid_iff.mp hvalid, fun q hq hne hsame => ?_⟩
      exact hsubnets q (List.mem_cons_of_mem _ hq) vm hmem hne _ hsame _ hsubnet rfl
  · rintro ⟨honly, hnet⟩
    -- the new process against one that was there
    have hcids : ∀ q ∈ h.processes, q.id ≠ vm.id → ∀ i' ∈ (h.start vm.id o).instances.lookup vm.id,
        ∀ j' ∈ (h.start vm.id o).instances.lookup q.id, j'.guestCid ≠ i'.guestCid := by
      intro q hq hne i' hi' j' hj'
      obtain ⟨j, hj, hcid'⟩ := lookup_start hj'
      rw [hself i' hi', ← hcid']
      exact honly q hq hne j hj
    have hsubnets : ∀ q ∈ h.processes, q.id ≠ vm.id → ∀ m ∈ vm.subnet, q.subnet ≠ some m := by
      intro q hq hne m hm
      rw [hsubnet] at hm
      split_ifs at hm with hboth
      · rw [Bool.and_eq_true] at hboth
        rw [Option.mem_some_iff] at hm
        rw [← hm]
        exact (hnet hboth.1 hboth.2).2 q hq hne
      · cases hm
    refine ⟨?_, ?_, ?_, (h.start_keeps vm.id o).1.trans hid.counter⟩
    · rw [hvm]
      intro p hp q hq hne i' hi' j' hj'
      rcases List.mem_cons.mp hp with rfl | hpOld
      · rcases List.mem_cons.mp hq with rfl | hqOld
        · exact absurd rfl hne
        · exact (hcids q hqOld (Ne.symm hne) i' hi' j' hj').symm
      · rcases List.mem_cons.mp hq with rfl | hqOld
        · exact hcids p hpOld hne j' hj' i' hi'
        · obtain ⟨i, hi, hcid⟩ := lookup_start hi'
          obtain ⟨j, hj, hcid'⟩ := lookup_start hj'
          rw [← hcid, ← hcid']
          exact hid.cids p hpOld q hqOld hne i hi j hj
    · rw [hvm]
      intro p hp q hq hne m hm n hn
      rcases List.mem_cons.mp hp with rfl | hpOld
      · rcases List.mem_cons.mp hq with rfl | hqOld
        · exact absurd rfl hne
        · rintro rfl
          exact hsubnets q hqOld (Ne.symm hne) m hm hn
      · rcases List.mem_cons.mp hq with rfl | hqOld
        · rintro rfl
          exact hsubnets p hpOld hne m hn hm
        · exact hid.subnets p hpOld q hqOld hne m hm n hn
    · rw [htaps]
      split_ifs with hboth
      · rw [Bool.and_eq_true] at hboth
        have hvalid : IsValid inst.guestCid := isValid_iff.mpr (hnet hboth.1 hboth.2).1
        exact List.forall_mem_cons.mpr ⟨hvalid, hid.addresses⟩
      · exact hid.addresses

/-- **Starting** keeps the VMs apart if the number is not in use and small enough. -/
theorem identified_start_iff (hid : h.Identified) {id : String} {o : StartOutcome} :
    (h.start id o).Identified ↔ h.Allocates (.start id o) := by
  rcases h.start_cases id o with ⟨inst, pid, hlookup, hpid, halive⟩ | hnone
  · rw [identified_spawned_iff hid hlookup hpid halive]
    constructor
    · intro hok inst' hinst' pid' hpid' _
      rw [Option.mem_def, hlookup, Option.some_inj] at hinst'
      rw [← hinst']
      exact hok
    · intro hok
      exact hok inst hlookup pid hpid halive
  · rw [start_not_spawned hnone]
    refine iff_of_true hid fun inst hinst pid hpid halive => ?_
    rw [hnone inst hinst pid hpid] at halive
    cases halive

/-- What one step does. -/
theorem identified_step_iff (hcounts : h.Counts) (hid : h.Identified) (i : FcStep) :
    (h.step i).Identified ↔ h.Allocates i := by
  cases i with
  | create id logged => exact identified_create_iff hcounts hid
  | start id o => exact identified_start_iff hid
  | stop id => exact iff_of_true (hid.stop id) trivial
  | delete id => exact iff_of_true (hid.delete id) trivial
  | restart => exact iff_of_true hid.restart trivial
  | list => exact identified_list_iff hid
  | exit pid => exact iff_of_true (hid.exit pid) trivial

theorem counts_new : new.Counts :=
  Or.inr ⟨(by decide : (0 : UInt32) < FC_GUEST_CID), fun id i hi => by
    rw [new, AList.lookup_empty] at hi
    cases hi⟩

theorem identified_new : new.Identified where
  cids p hp := by cases hp
  subnets p hp := by cases hp
  addresses t ht := by cases ht
  counter := rfl

/-- **The VMs can be told apart** in every state of a run exactly if every step of it takes a number
that is free and small enough. -/
theorem identities_iff (steps : List FcStep) :
    Along step Identified new steps ↔ Admitted step Allocates new steps :=
  along_iff_admitted Counts Identified (fun _ i hcounts => hcounts.step i)
    (fun _ i hcounts hid => identified_step_iff hcounts hid i) counts_new identified_new

/-! ## Two VMs that outlive the agent -/

/-- A start of which all goes well. -/
def started (pid : ℕ) : StartOutcome := ⟨some pid, true, true, true, true⟩

/-- Two VMs run when the agent is restarted. -/
def twoOutlive : List FcStep :=
  [.create "a" true, .start "a" (started 1), .create "b" true, .start "b" (started 2), .restart,
    .list]

/-- **VMs that outlive the agent** have the same CID. -/
theorem identities_fail : ¬∀ steps, Along step Identified new steps := by
  intro hall
  obtain ⟨hcids, -⟩ := hall twoOutlive twoOutlive List.prefix_rfl
  have hlookup : (run step new twoOutlive).instances.lookup "a" = some (restored 1) ∧
      (run step new twoOutlive).instances.lookup "b" = some (restored 2) := by decide
  have hprocesses : (run step new twoOutlive).processes = [⟨2, "b", some 4⟩, ⟨1, "a", some 3⟩] := by
    decide
  rw [hprocesses] at hcids
  exact hcids ⟨1, "a", some 3⟩ (by simp) ⟨2, "b", some 4⟩ (by simp) (by decide) _ hlookup.1 _
    hlookup.2 rfl

end FcHost

end K3rs
