import AtbmWifi.Lib.Transition

/-!
# WSM commands and their confirmations

`wsm_cmd_send` publishes one command at a time in `hw_priv->wsm_cmd` and waits;
the transmit path takes its buffer (`wsm_txed`); the BH thread handles each
confirmation in two critical sections of `wsm_cmd.lock` (`handleRxTake`: take
the argument and the command id and invalidate the latter; `handleRxFinish`:
write the result).  The firmware is any sequence of confirmations: late, duplicated or
unsolicited.

Every step is one critical section, or the code between two of them that
touches nothing shared.  `clock`, `retBy`, `writes`, `returns` and the fields
marked so in the records are history: no step looks at them.
-/

namespace AtbmWifi

open Transition

/-- `WSM_TX_LINK_ID(WSM_TX_LINK_ID_MAX)` -/
def wsmTxLinkIdMask : BitVec 16 := 0x0B#16 <<< 6

def wsmCnfBase : BitVec 16 := 0x0400#16

/-- The value of `wsm_cmd.cmd` when no command is outstanding. -/
def wsmCmdIdle : BitVec 16 := 0xFFFF#16

def stripLinkId (id : BitVec 16) : BitVec 16 := id &&& ~~~wsmTxLinkIdMask

/-- The branch of `wsm_handle_rx` for command confirmations: `id & WSM_CNF_BASE`, after
`WSM_TX_REQ_ID`, `WSM_GIVE_BUFFER_REQ_ID`, `WSM_FIRMWARE_CHECK_CONFIRM_ID` and
`WSM_LEGACY_MULTI_TX_CNF_ID` took theirs. -/
def isCmdCnf (id : BitVec 16) : Bool :=
  !([0x0404#16, 0x0422#16, 0x0402#16, 0x041E#16].contains (stripLinkId id)) &&
    (stripLinkId id &&& wsmCnfBase != 0#16)

/-- `(id & ~WSM_CNF_BASE) == wsm_cmd`, the latter without its link id. -/
def answers (id cmd : BitVec 16) : Bool :=
  stripLinkId id &&& ~~~wsmCnfBase == stripLinkId cmd

inductive CnfCase
  /-- `if (likely(wsm_arg)) ret = .._confirm(hw_priv, wsm_arg, &wsm_buf)`, which fills the argument -/
  | fills
  /-- the same, and the argument is only read -/
  | reads
  /-- `ret = .._confirm(hw_priv, &wsm_buf)` -/
  | plain
  /-- `wsm_stop_scan_confirm`, whose result is dropped -/
  | stopScan
  /-- `default: return -1` -/
  | unknown
  deriving DecidableEq, Repr

/-- The switch of `wsm_handle_rx`.  `fills`: read shmem, generic request, read MIB,
configuration, join.  `reads`: write shmem, write MIB, request buffer. -/
def cnfCase (id : BitVec 16) : CnfCase :=
  if [0x0400#16, 0x0403#16, 0x0405#16, 0x0409#16, 0x040B#16].contains id then .fills
  else if [0x0401#16, 0x0406#16, 0x0423#16].contains id then .reads
  else if id = 0x0408#16 then .stopScan
  else if [0x0419#16, 0x0407#16, 0x0424#16, 0x040A#16, 0x040C#16, 0x040D#16, 0x0410#16, 0x0411#16,
      0x0412#16, 0x0413#16, 0x0416#16, 0x0417#16, 0x0418#16, 0x041A#16, 0x041B#16, 0x041C#16,
      0x0414#16].contains id then .plain
  else .unknown

structure WsmCmd where
  done : Bool := false
  lastSendCmd : BitVec 16 := 0#16
  ptr : Option Nat := none
  len : Nat := 0
  arg : Option Nat := none
  ret : Int := 0
  cmd : BitVec 16 := 0#16
  cnf : Bool := false
  deriving DecidableEq, Repr

/-- A confirmation: its id, what the `.._confirm` function of its id returns for this body
and what that function stores through a non-`NULL` argument, if anything. -/
structure Confirmation where
  id : BitVec 16
  status : Int
  fill : Option Nat
  deriving DecidableEq, Repr

/-- `ret` at the end of the switch, `arg` being the snapshot of `wsm_cmd.arg`. -/
def cnfRet (n : Confirmation) (arg : Option Nat) : Int :=
  match cnfCase (stripLinkId n.id), arg with
  | .fills, some _ => n.status
  | .reads, some _ => n.status
  | .plain, _ => n.status
  | _, _ => 0

def cnfStore (n : Confirmation) (arg : Option Nat) : Option (Nat × Nat) :=
  match cnfCase (stripLinkId n.id), arg, n.fill with
  | .fills, some a, some v => some (a, v)
  | _, _, _ => none

/-- A `wsm_cmd_send` that has published its command and waits, with the values it was called
with.  History: when it published, whether a confirmation of its id was taken since. -/
structure Sender where
  cmd : BitVec 16
  arg : Option Nat
  published : Nat
  taken : Bool
  deriving DecidableEq, Repr

/-- `wsm_handle_rx` between its two critical sections, with its local `wsm_arg`.  History:
when the confirmation came and the waiting command it was matched with. -/
structure Handler where
  cnf : Confirmation
  arg : Option Nat
  at_ : Nat
  owner : Option Nat
  deriving DecidableEq, Repr

/-- Who wrote `wsm_cmd.ret`. -/
inductive RetBy
  /-- a timeout, a teardown, or nobody yet -/
  | code
  | confirmation (n : Confirmation) (at_ : Nat)
  deriving DecidableEq, Repr

/-- A completed `wsm_cmd_send`. -/
structure Return where
  cmd : BitVec 16
  arg : Option Nat
  published : Nat
  ret : Int
  by_ : RetBy
  deriving DecidableEq, Repr

/-- A store through an argument, by a handler matched with `owner`. -/
structure ArgWrite where
  owner : Option Nat
  addr : Nat
  value : Nat
  /-- `owner`'s `wsm_cmd_send` had returned -/
  late : Bool
  deriving DecidableEq, Repr

structure CmdState where
  wsmCmd : WsmCmd := {}
  /-- the holder of `wsm_cmd_mux`, while it waits -/
  sender : Option Sender := none
  handler : Option Handler := none
  clock : Nat := 0
  retBy : RetBy := .code
  returns : List Return := []
  writes : List ArgWrite := []
  deriving DecidableEq, Repr

inductive CmdAct
  /-- `wsm_cmd_send`, up to its wait -/
  | send (buf len : Nat) (arg : Option Nat) (cmd : BitVec 16) (cnf : Bool)
  /-- `wsm_cmd_send` while `atbm_bh_is_term` -/
  | sendTerm (arg : Option Nat) (cmd : BitVec 16)
  | txed (data : Nat)
  /-- first critical section of `wsm_handle_rx` -/
  | receive (n : Confirmation)
  /-- rest of `wsm_handle_rx` -/
  | finish
  /-- `wsm_cmd_send` ends its wait with `ret == 0` -/
  | timeout
  /-- `wsm_cmd_send` ends its wait having seen `done` -/
  | wake
  /-- `atbm_sdio_release_err_cmd`, `atbm_sdio_force_free_wsm` -/
  | releaseErrCmd
  deriving DecidableEq, Repr

def eTimedOut : Int := -110

/-- `wsm_cmd_send`: `-3` before anything is published. -/
def cmdSendTerm (arg : Option Nat) (cmd : BitVec 16) (s : CmdState) : CmdState :=
  { s with returns := ⟨cmd, arg, s.clock, -3, .code⟩ :: s.returns }

/-- `wsm_cmd_send`: fill `wsm_cmd` under its lock. -/
def cmdSend (buf len : Nat) (arg : Option Nat) (cmd : BitVec 16) (cnf : Bool) (s : CmdState) : CmdState :=
  { s with
    wsmCmd := { s.wsmCmd with done := false, ptr := some buf, len, arg, cmd, cnf }
    sender := some ⟨cmd, arg, s.clock, false⟩
    clock := s.clock + 1 }

def wsmTxed (data : Nat) (s : CmdState) : CmdState :=
  if s.wsmCmd.ptr = some data then
    { s with wsmCmd := { s.wsmCmd with lastSendCmd := s.wsmCmd.cmd, ptr := none } }
  else s

/-- The first critical section: a snapshot of `arg`, and `cmd = 0xFFFF` whatever the id is; an
id that does not match ends the handling (`-EINVAL`). -/
def handleRxTake (n : Confirmation) (s : CmdState) : CmdState :=
  if isCmdCnf n.id then
    let s' := { s with
      wsmCmd := { s.wsmCmd with lastSendCmd := wsmCmdIdle, cmd := wsmCmdIdle }
      clock := s.clock + 1 }
    if answers n.id s.wsmCmd.cmd then
      { s' with
        handler := some ⟨n, s.wsmCmd.arg, s.clock, s.sender.map Sender.published⟩
        sender := s.sender.map fun c => { c with taken := true } }
    else s'
  else s

/-- The switch, and the second critical section unless it returned. -/
def handleRxFinish (s : CmdState) : CmdState :=
  match s.handler with
  | none => s
  | some h =>
    if cnfCase (stripLinkId h.cnf.id) = .unknown then { s with handler := none }
    else
      { s with
        handler := none
        wsmCmd := { s.wsmCmd with ret := cnfRet h.cnf h.arg, done := true }
        retBy := .confirmation h.cnf h.at_
        writes := match cnfStore h.cnf h.arg with
          | some (a, v) =>
            ⟨h.owner, a, v, h.owner.isNone || s.sender.map Sender.published != h.owner⟩ :: s.writes
          | none => s.writes }

/-- What a waiting `wsm_cmd_send` returns when it sees `done`. -/
def wakeReturn (s : CmdState) (c : Sender) : Return :=
  ⟨c.cmd, c.arg, c.published, s.wsmCmd.ret, s.retBy⟩

def cmdWake (s : CmdState) : CmdState :=
  match s.sender with
  | none => s
  | some c => { s with sender := none, returns := wakeReturn s c :: s.returns }

def cmdTimeout (s : CmdState) : CmdState :=
  match s.sender with
  | none => s
  | some c =>
    { s with
      wsmCmd := { s.wsmCmd with arg := none, ptr := none, done := true, ret := -1, cmd := wsmCmdIdle }
      sender := none
      retBy := .code
      returns := ⟨c.cmd, c.arg, c.published, eTimedOut, .code⟩ :: s.returns }

def sdioReleaseErrCmd (s : CmdState) : CmdState :=
  if s.wsmCmd.cmd ≠ wsmCmdIdle then
    { s with
      wsmCmd := { s.wsmCmd with ret := -1, done := true, cmd := wsmCmdIdle, ptr := none, arg := none }
      retBy := .code }
  else s

def CmdAct.next (s : CmdState) : CmdAct → CmdState
  | .send buf len arg cmd cnf => cmdSend buf len arg cmd cnf s
  | .sendTerm arg cmd => cmdSendTerm arg cmd s
  | .txed data => wsmTxed data s
  | .receive n => handleRxTake n s
  | .finish => handleRxFinish s
  | .timeout => cmdTimeout s
  | .wake => cmdWake s
  | .releaseErrCmd => sdioReleaseErrCmd s

/-- `wsm_cmd_mux` lets one command in at a time, `BUG_ON(wsm_cmd.ptr)` halts the machine, no
caller passes the idle value as a command, and one BH thread handles one confirmation at a time. -/
def CmdAct.enabled (s : CmdState) : CmdAct → Prop
  | .send _ _ _ cmd _ => s.sender = none ∧ s.wsmCmd.ptr = none ∧ cmd ≠ wsmCmdIdle
  | .sendTerm _ _ => s.sender = none
  | .txed _ => True
  | .receive _ => s.handler = none
  | .finish => s.handler ≠ none
  | .timeout => s.sender ≠ none
  | .wake => s.sender ≠ none ∧ s.wsmCmd.done = true
  | .releaseErrCmd => True

instance decCmdEnabled (s : CmdState) : ∀ a, Decidable (CmdAct.enabled s a)
  | .send .. => inferInstanceAs (Decidable (_ ∧ _ ∧ _))
  | .sendTerm .. => inferInstanceAs (Decidable (s.sender = none))
  | .txed _ => inferInstanceAs (Decidable True)
  | .receive _ => inferInstanceAs (Decidable (s.handler = none))
  | .finish => inferInstanceAs (Decidable (s.handler ≠ none))
  | .timeout => inferInstanceAs (Decidable (s.sender ≠ none))
  | .wake => inferInstanceAs (Decidable (_ ∧ _))
  | .releaseErrCmd => inferInstanceAs (Decidable True)

/-- `hw_priv` is allocated zeroed. -/
def wsmCommands : Sys CmdState CmdAct :=
  .ofNext (· = {}) CmdAct.enabled CmdAct.next

end AtbmWifi
