import Mathlib.Data.List.TakeWhile
import K3rs.Lib.Utf8
import K3rs.Lib.Words

/-!
# Commands for a VM

A command goes to the guest in two hops: over the IPC socket of `k3rs-vmm` and over a vsock.  Both
messages have the same form: the arguments with NULs between them, a newline at the end, and for a
terminal session the byte `\x01` in front.

The newline ends a message, so that arguments must not have one; a command that starts with `\x01`
is taken for a terminal session.  The IPC listener also trims the line of a plain command, which is
of no consequence if it has no white space at its ends.  `exec_decodes_iff` says what is decoded
under these conditions.
-/

namespace K3rs

open Utf8 Words

/-! ## Messages -/

/-- `VSOCK_STREAM_PREFIX`. -/
def STREAM_PREFIX : UInt8 := 0x01

/-- `command.join("\0")`. -/
def joinNul (command : List String) : List Char := ['\x00'].intercalate (command.map String.toList)

/-- `split('\0')`. -/
def splitNul (line : List Char) : List String := (line.splitOn '\x00').map String.ofList

/-- A message with the line of a command. -/
def commandLine (command : List String) : List UInt8 := asBytes (joinNul command ++ ['\n'])

/-- `exec_via_ipc`, and the vsock request of `exec_via_vsock`. -/
def execRequest (command : List String) : List UInt8 := commandLine command

/-- `exec_streaming_via_ipc`, and the vsock request of `exec_streaming_via_vsock`. -/
def execStreamingRequest (command : List String) : List UInt8 := STREAM_PREFIX :: commandLine command

/-! ## The IPC listener -/

/-- What the listener makes of a connection. -/
inductive IpcOutcome where
  | closed
  | failed (message : String)
  | oneShot (parts : List String)
  /-- What follows the line is relayed. -/
  | streaming (parts : List String) (rest : List UInt8)
  deriving DecidableEq

/-- A line up to the newline. -/
def untilNewline (bytes : List UInt8) : List UInt8 := bytes.takeWhile (· ≠ '\n'.toUInt8)

/-- `handle_connection`, with all bytes that arrive. -/
def handleConnection : List UInt8 → IpcOutcome
  | [] => .closed
  | first :: rest =>
      if first = STREAM_PREFIX then
        if '\n'.toUInt8 ∈ rest then
          match fromUtf8 (untilNewline rest) with
          | none => .failed "exec error: invalid UTF-8 command\n"
          | some cmdStr =>
              let parts := splitNul cmdStr
              if parts.head? = some "" then .failed "exec error: empty command\n"
              else .streaming parts (rest.drop ((untilNewline rest).length + 1))
        else .closed
      else
        match fromUtf8 (first :: rest) with
        | none => .failed "exec error: invalid UTF-8 command\n"
        | some cmdString =>
            let cmdLine := trim cmdString
            if cmdLine = [] then .failed "exec error: empty command\n"
            else .oneShot (splitNul cmdLine)

/-! ## The guest -/

/-- What the guest makes of a request. -/
inductive ExecOutcome where
  | closed
  | failed (message : String)
  | run (streaming : Bool) (args : List String)
  deriving DecidableEq

/-- `handle_vsock_exec`; `repair` replaces invalid sequences. -/
def handleVsockExec (repair : List UInt8 → List Char) : List UInt8 → ExecOutcome
  | [] => .closed
  | first :: rest =>
      let streaming := decide (first = STREAM_PREFIX)
      -- the first byte belongs to the command, even if it is a newline
      let cmdBuf := (if streaming then [] else [first]) ++ untilNewline rest
      let input := (fromUtf8 cmdBuf).getD (repair cmdBuf)
      let args := splitNul input
      if args.head? = some "" then .failed "error: empty command\n" else .run streaming args

/-- A command on its way to the guest; `input` is what is typed in a terminal session. -/
def execInVm (repair : List UInt8 → List Char) (tty : Bool) (command : List String)
    (input : List UInt8) : ExecOutcome :=
  match handleConnection (if tty then execStreamingRequest command ++ input else execRequest command)
  with
  | .closed => .closed
  | .failed message => .failed message
  | .oneShot parts => handleVsockExec repair (execRequest parts)
  | .streaming parts rest => handleVsockExec repair (execStreamingRequest parts ++ rest)

/-! ## Lines -/

section Lines

variable {command : List String} {repair : List UInt8 → List Char}

theorem joinNul_splitNul (line : List Char) : joinNul (splitNul line) = line := by
  rw [joinNul, splitNul, List.map_map, show String.toList ∘ String.ofList = id from
    funext fun _ => String.toList_ofList, List.map_id, List.intercalate_splitOn]

/-- A line gives the arguments of a command exactly if it is the command's own line. -/
theorem splitNul_eq_iff (hnul : ∀ arg ∈ command, '\x00' ∉ arg.toList) (hne : command ≠ [])
    {line : List Char} : splitNul line = command ↔ line = joinNul command := by
  constructor
  · rintro rfl
    exact (joinNul_splitNul line).symm
  · rintro rfl
    rw [splitNul, joinNul, List.splitOn_intercalate, List.map_map,
      show String.ofList ∘ String.toList = id from funext fun _ => String.ofList_toList, List.map_id]
    · intro chars hchars
      obtain ⟨arg, harg, rfl⟩ := List.mem_map.mp hchars
      exact hnul arg harg
    · rwa [Ne, List.map_eq_nil_iff]

/-- A character of the line is in an argument, or is a separator. -/
theorem mem_joinNul {c : Char} (hc : c ≠ '\x00') :
    c ∈ joinNul command ↔ ∃ arg ∈ command, c ∈ arg.toList := by
  rw [joinNul]
  induction command with
  | nil => simp
  | cons arg command ih =>
      cases command with
      | nil => simp
      | cons next command =>
          have hcons : ['\x00'].intercalate ((arg :: next :: command).map String.toList) =
              arg.toList ++ '\x00' :: ['\x00'].intercalate ((next :: command).map String.toList) := by
            simp [List.intercalate]
          rw [hcons, List.mem_append, List.mem_cons, or_iff_right hc, ih]
          exact (List.exists_mem_cons_iff (fun a => c ∈ a.toList) arg (next :: command)).symm

/-- What the guest runs for a line. -/
def runLine (streaming : Bool) (line : List Char) : ExecOutcome :=
  let args := splitNul line
  if args.head? = some "" then .failed "error: empty command\n" else .run streaming args

theorem untilNewline_commandLine (command : List String) (rest : List UInt8) :
    untilNewline (commandLine command ++ rest) =
      asBytes ((joinNul command).takeWhile (· ≠ '\n')) :=
  takeWhile_asBytes (by decide) _ _

/-- In a terminal session the guest runs the line up to its first newline. -/
theorem handleVsockExec_streaming (command : List String) (rest : List UInt8) :
    handleVsockExec repair (execStreamingRequest command ++ rest) =
      runLine true ((joinNul command).takeWhile (· ≠ '\n')) := by
  rw [execStreamingRequest, List.cons_append, handleVsockExec, untilNewline_commandLine]
  simp only [decide_true, if_true, List.nil_append, fromUtf8_asBytes, Option.getD_some, runLine]

/-- For a plain command too, unless the line starts with `\x01` or a newline. -/
theorem handleVsockExec_oneShot {c : Char} {line : List Char} (hline : joinNul command = c :: line)
    (hstream : c ≠ '\x01') (hnewline : c ≠ '\n') :
    handleVsockExec repair (execRequest command) =
      runLine false ((joinNul command).takeWhile (· ≠ '\n')) := by
  obtain ⟨first, rest, hbytes, hfirst⟩ := exists_asBytes_cons c (line ++ ['\n'])
  have hmessage : commandLine command = first :: rest := by
    rw [commandLine, hline]
    exact hbytes
  have hprefix : first ≠ STREAM_PREFIX := by
    rintro rfl
    exact hstream ((toUInt8_mem_utf8EncodeChar (by decide)).mp hfirst)
  have hfirst : first ≠ '\n'.toUInt8 := by
    rintro rfl
    exact hnewline ((toUInt8_mem_utf8EncodeChar (by decide)).mp hfirst)
  have huntil : [first] ++ untilNewline rest = asBytes ((joinNul command).takeWhile (· ≠ '\n')) := by
    rw [← untilNewline_commandLine command [], List.append_nil, hmessage, untilNewline, untilNewline,
      List.takeWhile_cons_of_pos (by simp [hfirst])]
    rfl
  rw [execRequest, hmessage, handleVsockExec, decide_eq_false hprefix]
  simp only [Bool.false_eq_true, if_false, huntil, fromUtf8_asBytes, Option.getD_some, runLine]

/-- In a terminal session the listener passes on the line up to its first newline. -/
theorem handleConnection_streaming (command : List String) (input : List UInt8) :
    ∃ rest, handleConnection (execStreamingRequest command ++ input) =
      if (splitNul ((joinNul command).takeWhile (· ≠ '\n'))).head? = some "" then
        .failed "exec error: empty command\n"
      else .streaming (splitNul ((joinNul command).takeWhile (· ≠ '\n'))) rest := by
  refine ⟨(commandLine command ++ input).drop
    ((asBytes ((joinNul command).takeWhile (· ≠ '\n'))).length + 1), ?_⟩
  have hnewline : '\n'.toUInt8 ∈ commandLine command ++ input := by
    rw [commandLine, asBytes_append]
    exact List.mem_append_left _ (List.mem_append_right _ (by decide))
  rw [execStreamingRequest, List.cons_append, handleConnection, if_pos rfl, if_pos hnewline,
    untilNewline_commandLine, fromUtf8_asBytes]

/-- After `\x01` the listener never takes a command for a plain one. -/
theorem handleConnection_ne_oneShot (rest : List UInt8) (parts : List String) :
    handleConnection (STREAM_PREFIX :: rest) ≠ .oneShot parts := by
  rw [handleConnection, if_pos rfl]
  split_ifs
  · split
    · exact IpcOutcome.noConfusion
    · dsimp only
      split_ifs
      · exact IpcOutcome.noConfusion
      · exact IpcOutcome.noConfusion
  · exact IpcOutcome.noConfusion

/-- A plain command is trimmed as a whole. -/
theorem handleConnection_oneShot {c : Char} {line : List Char} (hline : joinNul command = c :: line)
    (hstream : c ≠ '\x01') : handleConnection (execRequest command) =
      if trim (joinNul command ++ ['\n']) = [] then .failed "exec error: empty command\n"
      else .oneShot (splitNul (trim (joinNul command ++ ['\n']))) := by
  obtain ⟨first, rest, hbytes, hfirst⟩ := exists_asBytes_cons c (line ++ ['\n'])
  have hmessage : execRequest command = first :: rest := by
    rw [execRequest, commandLine, hline]
    exact hbytes
  have hprefix : first ≠ STREAM_PREFIX := by
    rintro rfl
    exact hstream ((toUInt8_mem_utf8EncodeChar (by decide)).mp hfirst)
  rw [hmessage, handleConnection, if_neg hprefix, ← hmessage, execRequest, commandLine,
    fromUtf8_asBytes]

end Lines

/-! ## Both hops -/

section Commands

variable {command : List String} {repair : List UInt8 → List Char} {input : List UInt8}

/-- The line of a command has white space at one of its ends. -/
def Trimmed (command : List String) : Prop :=
  ∃ c, (c ∈ (joinNul command).head? ∨ c ∈ (joinNul command).getLast?) ∧ isWhiteSpace c = true

/-- The line up to its first newline gives the arguments exactly if it has none. -/
theorem splitNul_takeWhile_iff (hnul : ∀ arg ∈ command, '\x00' ∉ arg.toList) (hne : command ≠ []) :
    splitNul ((joinNul command).takeWhile (· ≠ '\n')) = command ↔
      ∀ arg ∈ command, '\n' ∉ arg.toList := by
  rw [splitNul_eq_iff hnul hne, List.takeWhile_eq_self_iff]
  constructor
  · intro hline arg harg hmem
    have hne := hline '\n' ((mem_joinNul (by decide)).mpr ⟨arg, harg, hmem⟩)
    exact absurd rfl (of_decide_eq_true hne)
  · rintro hargs c hc
    refine decide_eq_true ?_
    rintro rfl
    obtain ⟨arg, harg, hmem⟩ := (mem_joinNul (by decide)).mp hc
    exact hargs arg harg hmem

theorem runLine_eq_run_iff {streaming : Bool} {line : List Char} (hfirst : command.head? ≠ some "") :
    runLine streaming line = .run streaming command ↔ splitNul line = command := by
  rw [runLine]
  split_ifs with hempty
  · refine iff_of_false (fun h => nomatch h) fun heq => hfirst ?_
    rw [← heq, hempty]
  · exact ⟨fun h => (ExecOutcome.run.inj h).2, fun h => by rw [h]⟩

/-- A terminal session. -/
theorem execInVm_tty (repair : List UInt8 → List Char) (command : List String)
    (input : List UInt8) :
    execInVm repair true command input = runLine true ((joinNul command).takeWhile (· ≠ '\n')) ∨
      execInVm repair true command input = .failed "exec error: empty command\n" ∧
        (splitNul ((joinNul command).takeWhile (· ≠ '\n'))).head? = some "" := by
  obtain ⟨rest, hconnection⟩ := handleConnection_streaming command input
  rw [execInVm, if_pos rfl, hconnection]
  split_ifs with hempty
  · exact Or.inr ⟨rfl, hempty⟩
  · refine Or.inl ?_
    show handleVsockExec repair (execStreamingRequest _ ++ rest) = _
    rw [handleVsockExec_streaming, joinNul_splitNul, List.takeWhile_idem]

theorem execInVm_tty_iff (hnul : ∀ arg ∈ command, '\x00' ∉ arg.toList) (hne : command ≠ [])
    (hfirst : command.head? ≠ some "") :
    execInVm repair true command input = .run true command ↔ ∀ arg ∈ command, '\n' ∉ arg.toList := by
  rw [← splitNul_takeWhile_iff hnul hne]
  rcases execInVm_tty repair command input with hrun | ⟨hfailed, hempty⟩
  · rw [hrun, runLine_eq_run_iff hfirst]
  · refine iff_of_false ?_ fun heq => hfirst ?_
    · rw [hfailed]
      exact ExecOutcome.noConfusion
    · rw [← heq, hempty]

theorem joinNul_ne_nil (hnul : ∀ arg ∈ command, '\x00' ∉ arg.toList) (hne : command ≠ [])
    (hfirst : command.head? ≠ some "") : joinNul command ≠ [] := by
  obtain ⟨arg, rest, rfl⟩ := List.exists_cons_of_ne_nil hne
  have harg : arg.toList ≠ [] := by
    intro hnil
    refine hfirst (congrArg some ?_)
    exact String.toList_inj.mp hnil
  obtain ⟨c, hc⟩ := List.exists_mem_of_ne_nil _ harg
  have hother : c ≠ '\x00' := by
    rintro rfl
    exact hnul arg List.mem_cons_self hc
  exact List.ne_nil_of_mem ((mem_joinNul hother).mpr ⟨arg, List.mem_cons_self, hc⟩)

/-- A plain command that is not trimmed. -/
theorem execInVm_plain_iff (hnul : ∀ arg ∈ command, '\x00' ∉ arg.toList) (hne : command ≠ [])
    (hfirst : command.head? ≠ some "") (htrim : ¬Trimmed command) :
    execInVm repair false command input = .run false command ↔
      (∀ arg ∈ command, '\n' ∉ arg.toList) ∧ (joinNul command).head? ≠ some '\x01' := by
  obtain ⟨c, line, hline⟩ := List.exists_cons_of_ne_nil (joinNul_ne_nil hnul hne hfirst)
  have hhead : ∀ x ∈ (joinNul command).head?, isWhiteSpace x = false := fun x hx =>
    Bool.eq_false_of_not_eq_true fun hblank => htrim ⟨x, Or.inl hx, hblank⟩
  have hlast : ∀ x ∈ (joinNul command).getLast?, isWhiteSpace x = false := fun x hx =>
    Bool.eq_false_of_not_eq_true fun hblank => htrim ⟨x, Or.inr hx, hblank⟩
  have hmode : (joinNul command).head? ≠ some '\x01' ↔ c ≠ '\x01' := by
    rw [hline, List.head?_cons, Ne, Option.some_inj]
  rw [hmode, execInVm, if_neg Bool.false_ne_true]
  by_cases hstream : c = '\x01'
  · refine iff_of_false (fun hrun => ?_) fun h => h.2 hstream
    -- The listener takes it for a terminal session, and so does the guest.
    have hmessage : execRequest command = STREAM_PREFIX :: asBytes (line ++ ['\n']) := by
      rw [execRequest, commandLine, hline, hstream, List.cons_append, asBytes_cons,
        utf8EncodeChar_ascii (by decide)]
      rfl
    rw [hmessage] at hrun
    cases hconnection : handleConnection (STREAM_PREFIX :: asBytes (line ++ ['\n'])) with
    | closed | failed message =>
        rw [hconnection] at hrun
        exact nomatch hrun
    | oneShot parts => exact handleConnection_ne_oneShot _ _ hconnection
    | streaming parts rest =>
        rw [hconnection] at hrun
        change handleVsockExec repair (execStreamingRequest parts ++ rest) = _ at hrun
        rw [handleVsockExec_streaming, runLine] at hrun
        split_ifs at hrun
        exact nomatch hrun
  · have hnewline : c ≠ '\n' := by
      rintro rfl
      exact absurd (hhead '\n' (by rw [hline]; rfl)) (by decide)
    rw [handleConnection_oneShot hline hstream, trim_append_blank (by decide) hhead hlast,
      if_neg (joinNul_ne_nil hnul hne hfirst), (splitNul_eq_iff hnul hne).mpr rfl, and_iff_left hstream,
      ← splitNul_takeWhile_iff hnul hne]
    show handleVsockExec repair (execRequest command) = _ ↔ _
    rw [handleVsockExec_oneShot hline hstream hnewline, runLine_eq_run_iff hfirst]

end Commands

/-- **What the guest decodes.**  A terminal session runs the command as it is given exactly if no
argument has a newline.  So does a plain command that is not trimmed and does not start with the
mark of a terminal session. -/
theorem exec_decodes_iff (repair : List UInt8 → List Char) (command : List String)
    (input : List UInt8) (hnul : ∀ arg ∈ command, '\x00' ∉ arg.toList) (hne : command ≠ [])
    (hfirst : command.head? ≠ some "") :
    (execInVm repair true command input = .run true command ↔
      ∀ arg ∈ command, '\n' ∉ arg.toList) ∧
    (¬Trimmed command → (execInVm repair false command input = .run false command ↔
      (∀ arg ∈ command, '\n' ∉ arg.toList) ∧ (joinNul command).head? ≠ some '\x01')) :=
  ⟨execInVm_tty_iff hnul hne hfirst, execInVm_plain_iff hnul hne hfirst⟩

instance (command : List String) : Decidable (Trimmed command) :=
  decidable_of_iff ((joinNul command).head?.any isWhiteSpace = true ∨
    (joinNul command).getLast?.any isWhiteSpace = true) (by
      simp only [Trimmed, Option.any_eq_true, or_and_right, exists_or, Option.mem_def])

/-- A script of one line. -/
def oneLine : List String := ["sh", "-c", "echo  a; echo é"]

theorem exec_decodes_iff_oneLine :
    execInVm (fun _ => []) true oneLine [] = .run true oneLine ∧
      execInVm (fun _ => []) false oneLine [] = .run false oneLine :=
  have h := exec_decodes_iff (fun _ => []) oneLine [] (by decide) (by decide) (by decide)
  ⟨h.1.mpr (by decide), (h.2 (by decide)).mpr ⟨by decide, by decide⟩⟩

/-- A script of two lines. -/
def twoLines : List String := ["sh", "-c", "echo a\necho b"]

/-- Only its first line reaches the guest; a command that starts with the mark of a terminal session
becomes one; and the last argument of a plain command loses a blank at its end. -/
theorem exec_decodes_less :
    execInVm (fun _ => []) true twoLines [] = .run true ["sh", "-c", "echo a"] ∧
      execInVm (fun _ => []) false twoLines [] = .run false ["sh", "-c", "echo a"] ∧
      execInVm (fun _ => []) false ["\x01ls"] [] = .run true ["ls"] ∧
      execInVm (fun _ => []) false ["echo", "a "] [] = .run false ["echo", "a"] ∧
      ["sh", "-c", "echo a"] ≠ twoLines ∧ ["ls"] ≠ ["\x01ls"] ∧ ["echo", "a"] ≠ ["echo", "a "] := by
  refine ⟨by decide, by decide, by decide, by decide, by decide,
    by decide, by decide⟩

end K3rs
