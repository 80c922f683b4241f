import AtbmWifi.Lib.Cursor
import AtbmWifi.Lib.Owner
import AtbmWifi.Lib.Transition

/-!
# The table of internal scan results

`ieee80211_scan_rx_internal_update` and `ieee80211_scan_internal_list_flush` hold `internal_scan_list_lock` from end to end.
`ieee80211_scan_internal_req_results` drops it for the result handler, with the next node saved.  The states are those in
which the lock is free; a step is a section under it.

Nodes and special-IE buffers are numbered as they come: an address that comes back is another number.  `freed`, `freedIes`,
`handed` and `dangling` are history.  The hash of the kernel is a parameter; `internal_scan_n_results` counts allocated nodes
and cannot wrap.
-/

namespace AtbmWifi

open Transition Cursor

/-- `struct ieee80211_internal_scan_sta`; `ie` is the buffer of the special IE. -/
structure ScanSta where
  bssid : Vector UInt8 6
  ssid : List UInt8
  channel : UInt8
  signal : UInt8
  encType : UInt8
  encTypeName : UInt32
  beacon : Bool
  cca : Bool
  ieLen : UInt8
  ie : Option Nat
  deriving DecidableEq, Repr

/-- What `kzalloc` gives. -/
def ScanSta.zero : ScanSta := ⟨Vector.replicate 6 0, [], 0, 0, 0, 0, false, false, 0, none⟩

/-- `req_results` with the lock dropped. -/
structure ScanReader where
  flush : Bool
  /-- `result_handle` is set -/
  handler : Bool
  ret : Bool
  hashIndex : Nat
  /-- `node` -/
  node : Nat
  /-- `node_temp` -/
  next : Option Nat
  /-- the nodes before `node` in this call, in turn -/
  handed : List Nat
  deriving DecidableEq, Repr

structure ScanTable where
  /-- `internal_scan_list` -/
  list : List (List Nat)
  nResults : Nat
  sta : Nat → ScanSta
  readers : Nat → Option ScanReader
  /-- nodes allocated so far -/
  nodes : Nat
  /-- special-IE buffers handed to update so far -/
  ies : Nat
  freed : List Nat
  freedIes : List Nat
  /-- a reader has followed the link of a node that is not linked -/
  dangling : Bool

namespace ScanTable

abbrev hashEntries : Nat := 16

section
variable (hash : List UInt8 → Fin hashEntries)

def hashIndex (ssid : List UInt8) : Nat := if ssid = [] then 0 else hash ssid

/-- `atbm_kfree(sta_node->sta.ie)` -/
def freeIe (n : Nat) (s : ScanTable) : ScanTable :=
  match (s.sta n).ie with
  | some i => { s with
      freedIes := i :: s.freedIes
      sta := Function.update s.sta n { s.sta n with ie := none, ieLen := 0 } }
  | none => s

/-- The first node with the BSSID and the SSID length of the result. -/
def firstMatch (s : ScanTable) (result : ScanSta) (hlist : List Nat) : Option Nat :=
  hlist.find? fun n => decide (result.ssid.length = (s.sta n).ssid.length ∧ result.bssid = (s.sta n).bssid)

def target (s : ScanTable) (result : ScanSta) (hlist : List Nat) : Option Nat :=
  match s.firstMatch result hlist with
  | some n => if result.ssid = [] ∨ (s.sta n).ssid = result.ssid then some n else none
  | none => none

/-- `ieee80211_scan_rx_internal_update`; `alloc` is whether `kzalloc` gives a node. -/
def scanRxInternalUpdate (alloc : Bool) (result : ScanSta) (s : ScanTable) : ScanTable :=
  let index := hashIndex hash result.ssid
  match s.target result (chain s.list index) with
  | none =>
    if alloc = true then
      { s with
        nResults := s.nResults + 1
        list := push s.list index s.nodes
        sta := Function.update s.sta s.nodes result
        nodes := s.nodes + 1 }
    else s
  | some n =>
    -- a null special IE does not refresh
    if result.ieLen ≠ (s.sta n).ieLen ∧ result.ieLen = 0 then s
    else
      let s' := s.freeIe n
      { s' with sta := Function.update s'.sta n result }

/-- `ieee80211_scan_rx_internal_sta_info` puts a buffer of its own into the result, if the frame has a special IE. -/
def staInfo (s : ScanTable) (result : ScanSta) : ScanSta :=
  { result with ie := if result.ieLen = 0 then none else some s.ies }

def internalUpdate (alloc : Bool) (result : ScanSta) (s : ScanTable) : ScanTable :=
  scanRxInternalUpdate hash alloc (s.staInfo result)
    { s with ies := if result.ieLen = 0 then s.ies else s.ies + 1 }

def del (n : Nat) (s : ScanTable) : ScanTable :=
  { s with nResults := s.nResults - 1, list := unlink s.list n }

def freeNode (n : Nat) (s : ScanTable) : ScanTable :=
  let s' := s.freeIe n
  { s' with freed := n :: s'.freed }

def linked (s : ScanTable) : List Nat := s.list.flatten

def scanInternalListFlush (s : ScanTable) : ScanTable := s.linked.foldl (fun s n => (s.del n).freeNode n) s

/-- The body of the loop up to `spin_unlock_bh`, at node `n` of chain `h`. -/
def visit (t : Nat) (r : ScanReader) (h n : Nat) (s : ScanTable) : ScanTable :=
  let s' := if r.flush = true then s.del n else s
  { s' with readers := Function.update s'.readers t (some { r with hashIndex := h, node := n, next := succ (chain s.list h) n }) }

def scanInternalReqResults (t : Nat) (flush handler : Bool) (s : ScanTable) : ScanTable :=
  match first 0 s.list with
  | some (h, n) => s.visit t ⟨flush, handler, true, h, n, none, []⟩ h n
  | none => s

/-- The handler has been called, if it was, and has answered; from `spin_lock_bh` to the next `spin_unlock_bh`. -/
def reqResultsNext (t : Nat) (answer : Bool) (r : ScanReader) (s : ScanTable) : ScanTable :=
  let r' := { r with
    ret := if r.ret = true ∧ r.handler = true then answer else r.ret
    handed := r.handed ++ [r.node] }
  let s' := if r.flush = true then s.freeNode r.node else s
  match next s'.list r.hashIndex r.next with
  | some (h, n) =>
    if n ∈ chain s'.list h then s'.visit t r' h n
    else { s' with dangling := true, readers := Function.update s'.readers t none }
  | none => { s' with readers := Function.update s'.readers t none }

end

end ScanTable

inductive ScanTableAct
  | update (alloc : Bool) (result : ScanSta)
  | listFlush
  /-- a thread calls `req_results` -/
  | request (t : Nat) (flush handler : Bool)
  /-- its handler has returned -/
  | handled (t : Nat) (answer : Bool)
  deriving DecidableEq, Repr

namespace ScanTableAct

section
variable (hash : List UInt8 → Fin ScanTable.hashEntries)

def Enabled (s : ScanTable) : ScanTableAct → Prop
  | request t _ _ => s.readers t = none
  | handled t _ => s.readers t ≠ none
  | _ => True

instance decEnabled (s : ScanTable) (a : ScanTableAct) : Decidable (a.Enabled s) := by
  cases a <;> unfold Enabled <;> infer_instance

def next (s : ScanTable) : ScanTableAct → ScanTable
  | update alloc result => s.internalUpdate hash alloc result
  | listFlush => s.scanInternalListFlush
  | request t flush handler => s.scanInternalReqResults t flush handler
  | handled t answer =>
    match s.readers t with
    | some r => s.reqResultsNext t answer r
    | none => s

def unlinked (s : ScanTable) : ScanTableAct → List Nat
  | listFlush => s.linked
  | request _ flush _ => if flush = true then ((first 0 s.list).map Prod.snd).toList else []
  | handled t _ =>
    match s.readers t with
    | some r => if r.flush = true then ((Cursor.next s.list r.hashIndex r.next).map Prod.snd).toList else []
    | none => []
  | update _ _ => []

def caller : ScanTableAct → Option Nat
  | request t _ _ | handled t _ => some t
  | _ => none

/-- The condition on a step.  Update: if a node of the chain has the BSSID and the SSID of the result, it is the first with
the BSSID and the SSID length; and an allocation fails only for a result without special IE.  The others: no node is
unlinked that another thread has saved as its next. -/
def Clean (s : ScanTable) : ScanTableAct → Prop
  | update alloc result =>
    let hlist := chain s.list (ScanTable.hashIndex hash result.ssid)
    (∀ n ∈ hlist, (s.sta n).bssid = result.bssid → (s.sta n).ssid = result.ssid → s.firstMatch result hlist = some n) ∧
    (alloc = false → s.target result hlist = none → result.ieLen = 0)
  | a => ∀ n ∈ a.unlinked s, ∀ t r, s.readers t = some r → a.caller ≠ some t → r.next ≠ some n

end

end ScanTableAct

/-- After `ieee80211_scan_internal_int`. -/
def scanTableStart : ScanTable where
  list := List.replicate ScanTable.hashEntries []
  nResults := 0
  sta _ := ScanSta.zero
  readers _ := none
  nodes := 0
  ies := 0
  freed := []
  freedIes := []
  dangling := false

def scanTables (hash : List UInt8 → Fin ScanTable.hashEntries) : Sys ScanTable ScanTableAct :=
  .ofNext (fun s => s = scanTableStart) (fun s a => a.Enabled s) (ScanTableAct.next hash)

namespace ScanTable

/-- The node that a flushing reader has unlinked and not yet freed. -/
def held (s : ScanTable) (t : Nat) : Option Nat := (s.readers t).bind fun r => if r.flush = true then some r.node else none

def Live (s : ScanTable) (n : Nat) : Prop := n ∈ s.linked ∨ ∃ t, s.held t = some n

structure Good (hash : List UInt8 → Fin hashEntries) (s : ScanTable) : Prop where
  count : s.nResults = s.linked.length
  distinct : ∀ n ∈ s.linked, ∀ m ∈ s.linked,
    (s.sta n).bssid = (s.sta m).bssid → (s.sta n).ssid = (s.sta m).ssid → n = m
  placed : ∀ h n, n ∈ chain s.list h → h = hashIndex hash (s.sta n).ssid
  /-- a node is linked once, held by one reader or freed once -/
  nodeOnce : OneOwner (s.linked ++ s.freed) s.held
  nodeKept : ∀ n < s.nodes, n ∈ s.freed ∨ s.Live n
  /-- a buffer is with one node or freed once -/
  ieOnce : OneOwner s.freedIes fun n => (s.sta n).ie
  ieKept : ∀ i < s.ies, i ∈ s.freedIes ∨ ∃ n, s.Live n ∧ (s.sta n).ie = some i
  links : s.dangling = false
  /-- the nodes a call hands over, in turn; the last is the one its handler has now -/
  handed : ∀ t r, s.readers t = some r → (r.handed ++ [r.node]).Nodup

end ScanTable

end AtbmWifi
