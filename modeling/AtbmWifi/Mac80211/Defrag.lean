import Mathlib.Data.BitVec
import Mathlib.Logic.Function.Basic
import AtbmWifi.Lib.Transition

/-!
# The fragment cache of an interface

`ieee80211_rx_h_defragment` collects the fragments of up to four frames in `fragments`, a ring that a first fragment
enters at `fragment_next`.  `ieee80211_do_stop` and the removal of a station purge it.  The handlers of a frame
come one after the other.
-/

namespace AtbmWifi

open Transition

/-- What `rx_h_defragment` reads of a frame that is decrypted. -/
structure FragSkb where
  /-- `IEEE80211_FCTL_FTYPE` -/
  ftype : BitVec 2
  moreFrags : Bool
  isProtected : Bool
  /-- the first octet lowest -/
  addr1 : BitVec 48
  addr2 : BitVec 48
  seqCtrl : BitVec 16
  hdrLen : Nat
  body : List UInt8
  seqnoIdx : Nat
  /-- `rx->key`, and if its cipher is CCMP -/
  key : Option (Nat × Bool)
  /-- `u.ccmp.rx_pn` of the key, as the frame left it -/
  rxPn : BitVec 48
  deriving DecidableEq, Repr

namespace FragSkb

def frag (skb : FragSkb) : Nat := skb.seqCtrl.toNat % 16

def seq (skb : FragSkb) : Nat := skb.seqCtrl.toNat / 16

/-- `is_multicast_ether_addr` -/
def multicast (skb : FragSkb) : Bool := skb.addr1.getLsbD 0

def ccmp (skb : FragSkb) : Bool := skb.key.any Prod.snd && skb.isProtected

def whole (skb : FragSkb) : Bool :=
  (!skb.moreFrags && skb.frag == 0) || skb.hdrLen + skb.body.length < 24 || skb.multicast

end FragSkb

structure FragEntry where
  skbList : List FragSkb
  firstFragTime : Nat
  seq : Nat
  rxQueue : Nat
  lastFrag : Nat
  ccmp : Bool
  lastPn : BitVec 48
  firstKey : Option Nat

namespace FragEntry

def empty : FragEntry := ⟨[], 0, 0, 0, 0, false, 0, none⟩

/-- The tests of `ieee80211_reassemble_find` but for the age. -/
def fits (e : FragEntry) (skb : FragSkb) : Bool :=
  match e.skbList with
  | [] => false
  | f :: _ =>
    e.seq == skb.seq && e.rxQueue == skb.seqnoIdx && e.lastFrag + 1 == skb.frag && skb.ftype == f.ftype &&
      skb.addr1 == f.addr1 && skb.addr2 == f.addr2

def put (skb : FragSkb) (e : FragEntry) : FragEntry :=
  { e with
    skbList := e.skbList ++ [skb]
    lastFrag := skb.frag
    lastPn := if e.ccmp then skb.rxPn else e.lastPn }

end FragEntry

/-- A frame for the next handler, with what it is made of. -/
structure Msdu where
  skb : FragSkb
  parts : List FragSkb
  deriving DecidableEq, Repr

structure Defrag where
  fragments : Nat → FragEntry
  fragmentNext : Nat
  frames : List Msdu
  freed : List FragSkb

/-- `CONFIG_ATBM_USE_SW_ENC`, and `HZ` -/
structure DefragCfg where
  swEnc : Bool
  hz : Nat
  deriving DecidableEq, Repr

structure DefragEnv where
  jiffies : Nat
  /-- `skb_linearize` of a fragment -/
  linear : Bool
  /-- the room for the rest of the frame -/
  room : Bool
  deriving DecidableEq, Repr

def fragmentMax : Nat := 4

namespace Defrag

def free (skbs : List FragSkb) (s : Defrag) : Defrag := { s with freed := s.freed ++ skbs }

def setEntry (i : Nat) (e : FragEntry) (s : Defrag) : Defrag := { s with fragments := Function.update s.fragments i e }

def purge (i : Nat) (s : Defrag) : Defrag :=
  (s.free (s.fragments i).skbList).setEntry i { s.fragments i with skbList := [] }

def reassembleAdd (c : DefragCfg) (jiffies : Nat) (skb : FragSkb) (s : Defrag) : Defrag :=
  let e := s.fragments s.fragmentNext
  let t := (s.purge s.fragmentNext).setEntry s.fragmentNext <|
    if c.swEnc && skb.ccmp then
      ⟨[skb], jiffies, skb.seq, skb.seqnoIdx, skb.frag, true, skb.rxPn, skb.key.map Prod.fst⟩
    else ⟨[skb], jiffies, skb.seq, skb.seqnoIdx, skb.frag, false, e.lastPn, none⟩
  { t with
    fragmentNext := if s.fragmentNext + 1 ≥ fragmentMax then 0 else s.fragmentNext + 1 }

def before (idx : Nat) : Nat := if idx = 0 then fragmentMax - 1 else idx - 1

def reassembleFind (hz jiffies : Nat) (skb : FragSkb) : Nat → Nat → Defrag → Defrag × Option Nat
  | 0, _, s => (s, none)
  | fuel + 1, idx, s =>
    let idx := before idx
    if !(s.fragments idx).fits skb then reassembleFind hz jiffies skb fuel idx s
    else if (s.fragments idx).firstFragTime + 2 * hz < jiffies then reassembleFind hz jiffies skb fuel idx (s.purge idx)
    else (s, some idx)

/-- The fragment at the end of its entry; behind the last one the frame is put together. -/
def append (room : Bool) (i : Nat) (skb : FragSkb) (s : Defrag) : Defrag :=
  let e := s.fragments i
  let t := s.setEntry i (e.put skb)
  if skb.moreFrags then t
  else if !room then t.purge i
  else
    match e.skbList with
    | [] => t
    | first :: rest =>
      let t := t.setEntry i { t.fragments i with skbList := [] }
      { t with
        frames := t.frames ++
          [⟨{ first with body := first.body ++ (rest ++ [skb]).flatMap FragSkb.body }, first :: (rest ++ [skb])⟩] }

/-- `memcmp` compares the key with itself: what differs is found by the pointers. -/
def join (room : Bool) (i : Nat) (skb : FragSkb) (s : Defrag) : Defrag :=
  let e := s.fragments i
  let key := skb.key.map Prod.fst
  if e.ccmp then
    if !skb.ccmp then s.free [skb]
    else if e.firstKey ≠ key then (s.purge i).free [skb]
    else if e.lastPn + 1 ≠ skb.rxPn then s.free [skb]
    else s.append room i skb
  else if e.firstKey ≠ key then (s.purge i).free [skb]
  else if e.firstKey.isSome && !skb.isProtected then (s.purge i).free [skb]
  else s.append room i skb

def rxHDefragment (c : DefragCfg) (env : DefragEnv) (skb : FragSkb) (s : Defrag) : Defrag :=
  if skb.whole then { s with frames := s.frames ++ [⟨skb, [skb]⟩] }
  else if !env.linear then s.free [skb]
  else if skb.frag = 0 then s.reassembleAdd c env.jiffies skb
  else
    match s.reassembleFind c.hz env.jiffies skb fragmentMax s.fragmentNext with
    | (t, none) => t.free [skb]
    | (t, some i) => t.join env.room i skb

def purgeAll (p : FragEntry → Bool) : Nat → Defrag → Defrag
  | 0, s => s
  | n + 1, s => purgeAll p n (if p (s.fragments n) then s.purge n else s)

/-- The fragments in the cache. -/
def cached (s : Defrag) : List FragSkb := (List.range fragmentMax).flatMap fun i => (s.fragments i).skbList

end Defrag

inductive DefragAct
  | rx (env : DefragEnv) (skb : FragSkb)
  /-- `sta_info_flush_cache_frag` -/
  | flush (mac : BitVec 48)
  /-- `ieee80211_do_stop` -/
  | stop
  deriving DecidableEq, Repr

def DefragAct.next (c : DefragCfg) (s : Defrag) : DefragAct → Defrag
  | rx env skb => s.rxHDefragment c env skb
  | flush mac => s.purgeAll (fun e => e.skbList.head?.any fun f => mac == f.addr1 || mac == f.addr2) fragmentMax
  | stop => { s.purgeAll (fun _ => true) fragmentMax with fragmentNext := 0 }

def defragStart : Defrag := ⟨fun _ => .empty, 0, [], []⟩

def defragSys (c : DefragCfg) : Sys Defrag DefragAct := .ofNext (· = defragStart) (fun _ _ => True) (DefragAct.next c)

end AtbmWifi
