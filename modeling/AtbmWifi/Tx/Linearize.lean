import AtbmWifi.Wsm.CmdBuffer

/-!
# Sending a frame with fragments

`atbm_tx` puts the room for IV and ICV, the shift and the WSM header before and behind a data frame; a frame with
fragments gets its tail counted only (`sg_tailneed`).  `skb_padto` makes a frame linear that is shorter than the padded
length.  `atbm_xmit_linearize` copies what is left of the fragments into the buffer of the bus, or `xmit_len` bytes from
the start of a linear frame.  The USB path with a DMA buffer and no aggregation passes the padded length `usb_len`.
-/

namespace AtbmWifi

open Block

/-- A data frame of `headroom` and `tailroom` cells around its head. -/
structure TxSkb where
  addr : Nat
  headroom : Nat
  head : List Cell
  tailroom : Nat
  frags : List (List Cell)
  deriving DecidableEq, Repr

namespace TxSkb

def len (s : TxSkb) : Nat := s.head.length + s.frags.flatten.length

def nonlinear (s : TxSkb) : Bool := s.frags.flatten.length != 0

def bytes (s : TxSkb) : List Cell := s.head ++ s.frags.flatten

def push (n : Nat) (s : TxSkb) : TxSkb :=
  { s with addr := s.addr - n, headroom := s.headroom - n, head := List.replicate n none ++ s.head }

def put (n : Nat) (s : TxSkb) : TxSkb :=
  { s with head := s.head ++ List.replicate n none, tailroom := s.tailroom - n }

/-- The push, the `memmove` and the `skb_trim` for a frame with too little tailroom. -/
def moveDown (n : Nat) (s : TxSkb) : TxSkb :=
  let p := s.push n
  { p with head := (overwrite p.head 0 (p.head.drop n)).take s.head.length, tailroom := s.tailroom + n }

/-- The push of the IV, and the `memmove` of the header before it. -/
def pushIv (ivLen hdrlen : Nat) (s : TxSkb) : TxSkb :=
  let p := s.push ivLen
  { p with head := overwrite p.head 0 ((p.head.drop ivLen).take hdrlen) }

/-- `skb_padto`, with the zeros it leaves behind the frame -/
def padTo (n : Nat) (s : TxSkb) : TxSkb × Nat :=
  if n ≤ s.len then (s, 0) else ({ s with head := s.bytes, frags := [] }, n - s.len)

end TxSkb

/-- The `hw_key` of a protected data frame. -/
structure HwKey where
  tkip : Bool
  ivLen : Nat
  icvLen : Nat
  allocIv : Bool
  deriving DecidableEq, Repr

def HwKey.tail (k : HwKey) : Nat := if k.tkip then k.icvLen + 8 else k.icvLen

/-- `sizeof(struct wsm_tx)` -/
def Bus.wsmTxSize (bus : Bus) : Nat := bus.hdrSize + 20

def wsmTxExtraHeadroom : Nat := 32

/-- `atbm_tx_h_crypt` of a data frame, with `sg_tailneed`; none for `-ENOMEM`. -/
def atbmTxHCrypt (key : Option HwKey) (hdrlen : Nat) (s : TxSkb) : Option (TxSkb × Nat) :=
  match key with
  | none => some (s, 0)
  | some k =>
    if s.nonlinear then
      if s.headroom < k.ivLen + wsmTxExtraHeadroom then none
      else some (s.pushIv k.ivLen hdrlen, k.tail % 2 ^ 8)
    else if s.headroom + s.tailroom < k.ivLen + k.tail + wsmTxExtraHeadroom ∨
        s.headroom < k.ivLen + wsmTxExtraHeadroom then none
    else if s.tailroom < k.tail then
      if k.allocIv then none
      else some (((s.moveDown (k.tail - s.tailroom)).put k.tail).pushIv k.ivLen hdrlen, 0)
    else some ((s.put k.tail).pushIv k.ivLen hdrlen, 0)

def atbmTxHAlign (s : TxSkb) : Option (TxSkb × Nat) :=
  let offset := s.addr % 4
  if offset = 0 then some (s, 0)
  else if offset % 2 = 1 then none
  else if s.headroom < offset then none
  else some (s.push offset, offset)

/-- A frame as it is queued: `offset` is `txpriv.offset`, `len` and `usbLen` are those of the header. -/
structure TxFrame where
  skb : TxSkb
  pad : Nat
  tailneed : Nat
  offset : Nat
  len : Nat
  usbLen : Nat
  deriving DecidableEq, Repr

/-- `atbm_tx_h_wsm` and `atbm_usb_adjust_wsm`; `hdr` are the bytes of the header when the frame is sent. -/
def atbmTxHWsm (bus : Bus) (hdr : List UInt8) (shift tailneed : Nat) (s : TxSkb) : Option TxFrame :=
  if s.headroom < bus.wsmTxSize then none
  else
    let p := s.push bus.wsmTxSize
    let len := (p.len + tailneed) % 2 ^ 16
    some
      { skb := { p with head := overwrite p.head 0 (hdr.map some) }
        pad := 0
        tailneed := tailneed
        offset := shift + bus.wsmTxSize
        len := len
        usbLen := if len < 1538 then 1538 else len }

/-- The stages of `atbm_tx` that change the frame, with the `align_size` of the bus. -/
def atbmTxFrame (bus : Bus) (alignSize : Nat → Nat) (hdr : List UInt8) (key : Option HwKey) (hdrlen : Nat) (s : TxSkb) :
    Option TxFrame :=
  (atbmTxHCrypt key hdrlen s).bind fun c =>
    (atbmTxHAlign c.1).bind fun a =>
      (atbmTxHWsm bus hdr a.2 c.2 a.1).map fun f =>
        { f with skb := (f.skb.padTo (alignSize f.len)).1, pad := (f.skb.padTo (alignSize f.len)).2 }

/-- A copy of `bytes` to offset `pos` of the buffer, from a place where `avail` bytes may be read. -/
structure XmitCopy where
  pos : Nat
  bytes : List Cell
  avail : Nat
  deriving DecidableEq, Repr

/-- The loop over the fragments, from `sg_len` on. -/
def fragCopies (sgLen : Nat) : List (List Cell) → List XmitCopy
  | [] => []
  | frag :: frags => ⟨sgLen, frag, frag.length⟩ :: fragCopies (sgLen + frag.length) frags

def zeros (n : Nat) : List Cell := List.replicate n (some 0)

/-- `atbm_xmit_linearize` of a frame that is in its queue -/
def atbmXmitLinearize (f : TxFrame) (xmitLen : Nat) : List XmitCopy :=
  if f.skb.nonlinear then
    ⟨0, f.skb.head, f.skb.head.length⟩ :: fragCopies f.skb.head.length f.skb.frags ++
      (if f.tailneed ≠ 0 then [⟨f.skb.len, zeros f.tailneed, f.tailneed⟩] else [])
  else
    let data := f.skb.head ++ zeros f.pad
    [⟨0, data.take xmitLen ++ List.replicate (xmitLen - data.length) none, data.length⟩]

/-- Who calls it: USB with aggregation, with a DMA buffer alone, with its own buffer, or SDIO. -/
inductive XmitPath
  | usbAggr
  | usbDma
  | usbBuf
  | sdio (aresA : Bool)
  deriving DecidableEq, Repr

def XmitPath.bus : XmitPath → Bus
  | .sdio aresA => .sdio aresA
  | _ => .usb

def XmitPath.xmitLen (p : XmitPath) (f : TxFrame) : Nat :=
  match p with
  | .usbDma => f.usbLen
  | _ => f.len

def applyCopies (buf : List Cell) (copies : List XmitCopy) : List Cell :=
  copies.foldl (fun b c => overwrite b c.pos c.bytes) buf

def TxFrame.message (f : TxFrame) : List Cell := f.skb.bytes ++ zeros f.tailneed

structure Linearized (f : TxFrame) (xmitLen : Nat) (copies : List XmitCopy) : Prop where
  message : ∀ buf : List Cell, xmitLen ≤ buf.length → applyCopies buf copies = f.message ++ buf.drop f.message.length
  exact : f.message.length = f.len
  reads : ∀ c ∈ copies, c.bytes.length ≤ c.avail
  writes : ∀ c ∈ copies, c.pos + c.bytes.length ≤ xmitLen

def TxFrame.payload (f : TxFrame) : List Cell := f.skb.bytes.drop f.offset

namespace TxSkb

theorem length_bytes (s : TxSkb) : s.bytes.length = s.len := List.length_append

theorem bytes_padTo (n : Nat) (s : TxSkb) : (s.padTo n).1.bytes = s.bytes := by
  rw [padTo]
  split
  · rfl
  · rw [bytes, List.flatten_nil, List.append_nil]

theorem head_padTo {n : Nat} {s : TxSkb} (h : (s.padTo n).1.nonlinear = false) :
    (s.padTo n).1.head = s.bytes ∧ (s.padTo n).2 = n - s.len := by
  rw [padTo] at h ⊢
  split
  · next hn =>
    rw [if_pos hn] at h
    have hnil : s.frags.flatten = [] := by
      rw [nonlinear, bne_eq_false_iff_eq] at h
      exact List.eq_nil_of_length_eq_zero h
    rw [bytes, hnil, List.append_nil]
    exact ⟨rfl, (Nat.sub_eq_zero_of_le hn).symm⟩
  · exact ⟨rfl, rfl⟩

theorem head_moveDown (n : Nat) (s : TxSkb) : (s.moveDown n).head = s.head := by
  have hdrop : (s.push n).head.drop n = s.head := List.drop_left' List.length_replicate
  show (overwrite (s.push n).head 0 ((s.push n).head.drop n)).take s.head.length = _
  rw [hdrop]
  have hover : overwrite (s.push n).head 0 s.head = s.head ++ (s.push n).head.drop s.head.length :=
    overwrite_append (h := []) (by
      show s.head.length ≤ (List.replicate n none ++ s.head).length
      rw [List.length_append]
      omega)
  rw [hover, List.take_left]

theorem head_pushIv {ivLen hdrlen : Nat} {s : TxSkb} (h : hdrlen ≤ s.head.length) :
    (s.pushIv ivLen hdrlen).head =
      s.head.take hdrlen ++ (List.replicate ivLen none ++ s.head).drop hdrlen := by
  have hdrop : (s.push ivLen).head.drop ivLen = s.head := List.drop_left' List.length_replicate
  have hlen : (s.head.take hdrlen).length = hdrlen := by
    rw [List.length_take]
    omega
  show overwrite (s.push ivLen).head 0 (((s.push ivLen).head.drop ivLen).take hdrlen) = _
  rw [hdrop]
  have hover : overwrite (s.push ivLen).head 0 (s.head.take hdrlen) =
      s.head.take hdrlen ++ (s.push ivLen).head.drop (s.head.take hdrlen).length :=
    overwrite_append (h := []) (by
      show _ ≤ (List.replicate ivLen none ++ s.head).length
      rw [hlen, List.length_append]
      omega)
  rw [hover, hlen]
  rfl

end TxSkb

variable {hdrlen : Nat} {key : Option HwKey} {bus : Bus} {hdr : List UInt8}

theorem atbmTxHCrypt_cases {s : TxSkb} {c : TxSkb × Nat} (h : atbmTxHCrypt key hdrlen s = some c) :
    (key = none ∧ c = (s, 0)) ∨
    (∃ k, key = some k ∧ s.nonlinear = true ∧ c = (s.pushIv k.ivLen hdrlen, k.tail % 2 ^ 8)) ∨
    (∃ k, ∃ q : TxSkb, key = some k ∧ s.nonlinear = false ∧ q.head = s.head ∧ q.frags = s.frags ∧
      c = ((q.put k.tail).pushIv k.ivLen hdrlen, 0)) := by
  cases key with
  | none => exact .inl ⟨rfl, (Option.some.inj h).symm⟩
  | some k =>
    rw [atbmTxHCrypt] at h
    split at h
    · next hn =>
      split at h
      · cases h
      · exact .inr (.inl ⟨k, rfl, hn, (Option.some.inj h).symm⟩)
    · next hn =>
      have hn : s.nonlinear = false := by simpa using hn
      split at h
      · cases h
      · split at h
        · split at h
          · cases h
          · refine .inr (.inr ⟨k, s.moveDown (k.tail - s.tailroom), rfl, hn, ?_, rfl, (Option.some.inj h).symm⟩)
            exact s.head_moveDown _
        · exact .inr (.inr ⟨k, s, rfl, hn, rfl, rfl, (Option.some.inj h).symm⟩)

theorem atbmTxHAlign_eq {s : TxSkb} {a : TxSkb × Nat} (h : atbmTxHAlign s = some a) :
    a.1.head = List.replicate a.2 none ++ s.head ∧ a.1.frags = s.frags := by
  rw [atbmTxHAlign] at h
  split at h
  · obtain rfl := Option.some.inj h
    exact ⟨rfl, rfl⟩
  · split at h
    · cases h
    · split at h
      · cases h
      · obtain rfl := Option.some.inj h
        exact ⟨rfl, rfl⟩

structure TxQueued (alignSize : Nat → Nat) (s p : TxSkb) (f : TxFrame) : Prop where
  frags : p.frags = s.frags
  skb : f.skb = (p.padTo (alignSize f.len)).1
  pad : f.pad = (p.padTo (alignSize f.len)).2
  len : f.len = (p.len + f.tailneed) % 2 ^ 16
  usbLen : f.usbLen = if f.len < 1538 then 1538 else f.len
  tailneed : s.nonlinear = false → f.tailneed = 0

theorem atbmTxFrame_stages {alignSize : Nat → Nat}
    {s : TxSkb} {f : TxFrame} (h : atbmTxFrame bus alignSize hdr key hdrlen s = some f) :
    ∃ c a q, atbmTxHCrypt key hdrlen s = some c ∧ atbmTxHAlign c.1 = some a ∧
      atbmTxHWsm bus hdr a.2 c.2 a.1 = some q ∧
      f = { q with skb := (q.skb.padTo (alignSize q.len)).1, pad := (q.skb.padTo (alignSize q.len)).2 } := by
  obtain ⟨c, hc, h⟩ := Option.bind_eq_some_iff.mp h
  obtain ⟨a, ha, h⟩ := Option.bind_eq_some_iff.mp h
  obtain ⟨q, hq, h⟩ := Option.map_eq_some_iff.mp h
  exact ⟨c, a, q, hc, ha, hq, h.symm⟩

theorem txQueued {alignSize : Nat → Nat}
    {s : TxSkb} {f : TxFrame} (h : atbmTxFrame bus alignSize hdr key hdrlen s = some f) :
    ∃ p, TxQueued alignSize s p f := by
  obtain ⟨c, a, q, hc, ha, hq, rfl⟩ := atbmTxFrame_stages h
  rw [atbmTxHWsm] at hq
  split at hq
  · cases hq
  · obtain rfl := Option.some.inj hq
    refine ⟨_, ?_, rfl, rfl, ?_, rfl, fun hs => ?_⟩
    · show a.1.frags = s.frags
      rw [(atbmTxHAlign_eq ha).2]
      rcases atbmTxHCrypt_cases hc with ⟨-, rfl⟩ | ⟨k, -, -, rfl⟩ | ⟨k, r, -, -, -, hfrags, rfl⟩
      · rfl
      · rfl
      · exact hfrags
    · show (_ + c.2) % 2 ^ 16 = ((overwrite _ _ _).length + _ + c.2) % 2 ^ 16
      rw [length_overwrite]
      rfl
    · show c.2 = 0
      rcases atbmTxHCrypt_cases hc with ⟨-, rfl⟩ | ⟨k, -, hn, rfl⟩ | ⟨k, q, -, -, -, -, rfl⟩
      · rfl
      · rw [hs] at hn
        cases hn
      · rfl

theorem payload_eq {alignSize : Nat → Nat} {s : TxSkb} {f : TxFrame} (hhdr : hdr.length = bus.wsmTxSize)
    (h : atbmTxFrame bus alignSize hdr key hdrlen s = some f) :
    ∃ c, atbmTxHCrypt key hdrlen s = some c ∧ f.payload = c.1.bytes := by
  obtain ⟨c, a, q, hc, ha, hq, rfl⟩ := atbmTxFrame_stages h
  refine ⟨c, hc, ?_⟩
  obtain ⟨hhead, hfrags⟩ := atbmTxHAlign_eq ha
  rw [atbmTxHWsm] at hq
  split at hq
  · cases hq
  · obtain rfl := Option.some.inj hq
    rw [TxFrame.payload]
    simp only [TxSkb.bytes_padTo]
    have hfront : overwrite (List.replicate bus.wsmTxSize none ++ a.1.head) 0 (hdr.map some) =
        hdr.map some ++ a.1.head := overwrite_front (by rw [List.length_map, List.length_replicate, hhdr])
    have hwsm : (hdr.map some).length = bus.wsmTxSize := by
      rw [List.length_map, hhdr]
    show ((overwrite (List.replicate bus.wsmTxSize none ++ a.1.head) 0 (hdr.map some)) ++ a.1.frags.flatten).drop
      (a.2 + bus.wsmTxSize) = c.1.head ++ c.1.frags.flatten
    rw [hfront, hhead, hfrags, Nat.add_comm, ← List.drop_drop, List.append_assoc, List.drop_left' hwsm,
      List.append_assoc, List.drop_left' List.length_replicate]

/-- **A frame with fragments has the payload of the linear frame with the same bytes, which goes on with the room for
its ICV.** -/
theorem payload_same {alignSize : Nat → Nat}
    {s t : TxSkb} {f g : TxFrame} (hhdr : hdr.length = bus.wsmTxSize) (hlen : hdrlen ≤ s.head.length)
    (hs : s.nonlinear = true) (hhead : t.head = s.bytes) (hfrags : t.frags = [])
    (hf : atbmTxFrame bus alignSize hdr key hdrlen s = some f) (hg : atbmTxFrame bus alignSize hdr key hdrlen t = some g) :
    g.payload = f.payload ++ List.replicate ((key.map HwKey.tail).getD 0) none := by
  obtain ⟨c, hc, hfp⟩ := payload_eq hhdr hf
  obtain ⟨d, hd, hgp⟩ := payload_eq hhdr hg
  have ht : t.nonlinear = false := by
    rw [TxSkb.nonlinear, hfrags]
    rfl
  rw [hfp, hgp]
  rcases atbmTxHCrypt_cases hc with ⟨rfl, rfl⟩ | ⟨k, rfl, -, rfl⟩ | ⟨k, r, -, hn, -, -, -⟩
  · rcases atbmTxHCrypt_cases hd with ⟨-, rfl⟩ | ⟨k, hk, -, -⟩ | ⟨k, r, hk, -, -, -, -⟩
    · show t.head ++ t.frags.flatten = s.bytes ++ []
      rw [hhead, hfrags]
      rfl
    · cases hk
    · cases hk
  · rcases atbmTxHCrypt_cases hd with ⟨hk, -⟩ | ⟨k', hk, hn, -⟩ | ⟨k', r, hk, -, hr, hrf, rfl⟩
    · cases hk
    · rw [ht] at hn
      cases hn
    · obtain rfl := Option.some.inj hk
      have hput : (r.put k.tail).head = s.head ++ (s.frags.flatten ++ List.replicate k.tail none) := by
        show r.head ++ _ = _
        rw [hr, hhead, TxSkb.bytes, List.append_assoc]
      have hle : hdrlen ≤ (r.put k.tail).head.length := by
        rw [hput, List.length_append]
        omega
      have hnofrags : ((r.put k.tail).pushIv k.ivLen hdrlen).frags.flatten = [] := by
        show r.frags.flatten = []
        rw [hrf, hfrags]
        rfl
      rw [TxSkb.bytes, hnofrags, List.append_nil, TxSkb.head_pushIv hle, hput, TxSkb.bytes, TxSkb.head_pushIv hlen,
        List.take_append_of_le_length hlen, ← List.append_assoc (List.replicate k.ivLen none),
        List.drop_append_of_le_length]
      · simp only [List.append_assoc]
        rfl
      · rw [List.length_append]
        omega
  · rw [hs] at hn
    cases hn

theorem length_zeros (n : Nat) : (zeros n).length = n := List.length_replicate

theorem applyCopies_frags {frags : List (List Cell)} {h rest : List Cell}
    (hlen : frags.flatten.length ≤ rest.length) :
    applyCopies (h ++ rest) (fragCopies h.length frags) = h ++ frags.flatten ++ rest.drop frags.flatten.length := by
  induction frags generalizing h rest with
  | nil =>
    rw [List.flatten_nil, List.append_nil, List.length_nil, List.drop_zero]
    rfl
  | cons frag frags ih =>
    rw [List.flatten_cons, List.length_append] at hlen ⊢
    have hfirst : overwrite (h ++ rest) h.length frag = h ++ frag ++ rest.drop frag.length :=
      overwrite_append (by omega)
    show applyCopies (overwrite (h ++ rest) h.length frag) (fragCopies (h.length + frag.length) frags) = _
    rw [hfirst, ← List.length_append, ih (by rw [List.length_drop]; omega), List.drop_drop, List.append_assoc h,
      Nat.add_comm]

theorem mem_fragCopies {frags : List (List Cell)} {sgLen : Nat} {c : XmitCopy} (h : c ∈ fragCopies sgLen frags) :
    c.bytes.length = c.avail ∧ c.pos + c.bytes.length ≤ sgLen + frags.flatten.length := by
  induction frags generalizing sgLen with
  | nil => cases h
  | cons frag frags ih =>
    rw [List.flatten_cons, List.length_append]
    rcases List.mem_cons.mp h with rfl | h
    · refine ⟨rfl, ?_⟩
      show sgLen + frag.length ≤ _
      omega
    · obtain ⟨h1, h2⟩ := ih h
      exact ⟨h1, by omega⟩

theorem applyCopies_append (buf : List Cell) (l l' : List XmitCopy) :
    applyCopies buf (l ++ l') = applyCopies (applyCopies buf l) l' := List.foldl_append

theorem linearize_nonlinear {f : TxFrame} (hn : f.skb.nonlinear = true) (xmitLen : Nat) {buf : List Cell}
    (hbuf : f.message.length ≤ buf.length) :
    applyCopies buf (atbmXmitLinearize f xmitLen) = f.message ++ buf.drop f.message.length := by
  have hlen : f.message.length = f.skb.head.length + f.skb.frags.flatten.length + f.tailneed := by
    rw [TxFrame.message, List.length_append, f.skb.length_bytes, length_zeros, TxSkb.len]
  rw [atbmXmitLinearize, if_pos hn, List.cons_append, ← List.singleton_append, applyCopies_append, applyCopies_append]
  have hhead : applyCopies buf [⟨0, f.skb.head, f.skb.head.length⟩] =
      f.skb.head ++ buf.drop f.skb.head.length := by
    show overwrite buf 0 f.skb.head = _
    exact overwrite_append (h := []) (by omega)
  rw [hhead, applyCopies_frags (by rw [List.length_drop]; omega), List.drop_drop]
  by_cases ht : f.tailneed = 0
  · have hnone : zeros 0 = [] := rfl
    rw [if_neg (not_not.mpr ht), TxFrame.message, ht, hnone, List.append_nil, f.skb.length_bytes]
    rfl
  · rw [if_pos ht]
    show overwrite (f.skb.bytes ++ _) f.skb.len (zeros f.tailneed) = _
    rw [← f.skb.length_bytes, overwrite_append (by rw [List.length_drop, length_zeros]; omega), length_zeros,
      List.drop_drop, TxFrame.message, List.length_append, f.skb.length_bytes, length_zeros, TxSkb.len]

theorem nonlinear_copies {f : TxFrame} (hn : f.skb.nonlinear = true) {xmitLen : Nat} {c : XmitCopy}
    (hc : c ∈ atbmXmitLinearize f xmitLen) :
    c.bytes.length = c.avail ∧ c.pos + c.bytes.length ≤ f.message.length := by
  have hlen : f.message.length = f.skb.head.length + f.skb.frags.flatten.length + f.tailneed := by
    rw [TxFrame.message, List.length_append, f.skb.length_bytes, length_zeros, TxSkb.len]
  rw [atbmXmitLinearize, if_pos hn] at hc
  rcases List.mem_append.mp hc with hc | hc
  · rcases List.mem_cons.mp hc with rfl | hc
    · refine ⟨rfl, ?_⟩
      show 0 + f.skb.head.length ≤ _
      omega
    · obtain ⟨h1, h2⟩ := mem_fragCopies hc
      exact ⟨h1, by omega⟩
  · split at hc
    · obtain rfl := List.mem_singleton.mp hc
      refine ⟨length_zeros _, ?_⟩
      show f.skb.len + (zeros f.tailneed).length ≤ _
      rw [length_zeros, TxSkb.len]
      omega
    · cases hc

def XmitPath.Aligns (p : XmitPath) (alignSize : Nat → Nat) : Prop :=
  match p with
  | .sdio _ => ∀ n, n ≤ alignSize n
  | _ => alignSize = id

theorem XmitPath.le_align {p : XmitPath} {alignSize : Nat → Nat} (h : p.Aligns alignSize) (n : Nat) :
    n ≤ alignSize n := by
  cases p with
  | sdio _ => exact h n
  | usbAggr | usbDma | usbBuf =>
    obtain rfl : alignSize = id := h
    exact Nat.le_refl n

/-- The length fits its field, and the padded length is not read from a linear frame. -/
def FitsPath (p : XmitPath) (f : TxFrame) : Prop :=
  f.message.length < 2 ^ 16 ∧ (p = .usbDma → f.skb.nonlinear = true ∨ 1538 ≤ f.message.length)

instance (p : XmitPath) (f : TxFrame) : Decidable (FitsPath p f) := inferInstanceAs (Decidable (_ ∧ (_ → _)))

theorem linearize_linear {f : TxFrame} (hn : f.skb.nonlinear = false) (n : Nat) :
    atbmXmitLinearize f n = [⟨0, (f.skb.head ++ zeros f.pad).take n ++
      List.replicate (n - (f.skb.head ++ zeros f.pad).length) none, (f.skb.head ++ zeros f.pad).length⟩] := by
  rw [atbmXmitLinearize, if_neg (by rw [hn]; exact Bool.false_ne_true)]

namespace TxQueued

variable {alignSize : Nat → Nat} {s q : TxSkb} {f : TxFrame} {p : XmitPath}

theorem length_message (h : TxQueued alignSize s q f) : f.message.length = q.len + f.tailneed := by
  rw [TxFrame.message, List.length_append, h.skb, TxSkb.bytes_padTo, q.length_bytes, length_zeros]

theorem le_xmitLen (h : TxQueued alignSize s q f) (p : XmitPath) : f.len ≤ p.xmitLen f := by
  have husb := h.usbLen
  cases p with
  | usbDma =>
    show f.len ≤ f.usbLen
    split at husb <;> omega
  | usbAggr | usbBuf | sdio _ => exact Nat.le_refl _

theorem xmitLen_eq (h : TxQueued alignSize s q f) (hdma : p = .usbDma → 1538 ≤ f.len) : p.xmitLen f = f.len := by
  cases p with
  | usbDma =>
    have hlong := hdma rfl
    have husb := h.usbLen
    rw [if_neg (by omega)] at husb
    exact husb
  | usbAggr | usbBuf | sdio _ => rfl

theorem head_linear (h : TxQueued alignSize s q f) (hn : f.skb.nonlinear = false) :
    f.skb.head = q.bytes ∧ f.pad = alignSize f.len - q.len := by
  rw [h.skb] at hn ⊢
  rw [h.pad]
  exact TxSkb.head_padTo hn

theorem length_padded (h : TxQueued alignSize s q f) (hn : f.skb.nonlinear = false) :
    (f.skb.head ++ zeros f.pad).length = q.len + (alignSize f.len - q.len) := by
  rw [List.length_append, (h.head_linear hn).1, q.length_bytes, length_zeros, (h.head_linear hn).2]

theorem take_padded (h : TxQueued alignSize s q f) (hn : f.skb.nonlinear = false)
    (hlen : f.len = f.message.length) (halign : f.len ≤ alignSize f.len) :
    (f.skb.head ++ zeros f.pad).take f.len = f.message := by
  obtain ⟨hhead, hpad⟩ := h.head_linear hn
  have hmsg := h.length_message
  have hbytes : f.skb.bytes = f.skb.head := by
    rw [hhead, h.skb, TxSkb.bytes_padTo]
  have hheadlen : f.skb.head.length = q.len := by
    rw [hhead, q.length_bytes]
  have hzeros : (zeros f.pad).take (f.len - q.len) = zeros f.tailneed := by
    rw [zeros, List.take_replicate, zeros]
    congr 1
    omega
  rw [List.take_append, List.take_of_length_le (by omega), hheadlen, hzeros, TxFrame.message, hbytes]

theorem linearized_nonlinear (h : TxQueued alignSize s q f) (hn : f.skb.nonlinear = true) :
    Linearized f (p.xmitLen f) (atbmXmitLinearize f (p.xmitLen f)) ↔ FitsPath p f := by
  have hlen := h.len
  have hxmit := h.le_xmitLen p
  rw [← h.length_message] at hlen
  constructor
  · intro hl
    have hexact := hl.exact
    exact ⟨by omega, fun _ => .inl hn⟩
  · rintro ⟨hfit, -⟩
    have hexact : f.message.length = f.len := by
      rw [hlen, Nat.mod_eq_of_lt hfit]
    refine ⟨fun buf hbuf => linearize_nonlinear hn _ (by omega), hexact, fun c hc => ?_, fun c hc => ?_⟩
    · exact Nat.le_of_eq (nonlinear_copies hn hc).1
    · have := (nonlinear_copies hn hc).2
      omega

theorem dma_long (h : TxQueued id s q f) (hn : f.skb.nonlinear = false) (hlen : f.len = f.message.length)
    (hr : ∀ c ∈ atbmXmitLinearize f (XmitPath.usbDma.xmitLen f), c.bytes.length ≤ c.avail) : 1538 ≤ f.len := by
  have hread : ((f.skb.head ++ zeros f.pad).take (XmitPath.usbDma.xmitLen f) ++ List.replicate
      (XmitPath.usbDma.xmitLen f - (f.skb.head ++ zeros f.pad).length) none).length ≤
        (f.skb.head ++ zeros f.pad).length :=
    hr _ (by rw [linearize_linear hn]; exact List.mem_singleton_self _)
  have hcopied : XmitPath.usbDma.xmitLen f ≤ (f.skb.head ++ zeros f.pad).length := by
    rw [List.length_append, List.length_take, List.length_replicate] at hread
    omega
  have husb : XmitPath.usbDma.xmitLen f = if f.len < 1538 then 1538 else f.len := h.usbLen
  rw [husb, h.length_padded hn] at hcopied
  have hid : id f.len = f.len := rfl
  have hmsg := h.length_message
  split at hcopied <;> omega

theorem linearized_linear (h : TxQueued alignSize s q f) (hn : f.skb.nonlinear = false) (ha : p.Aligns alignSize) :
    Linearized f (p.xmitLen f) (atbmXmitLinearize f (p.xmitLen f)) ↔ FitsPath p f := by
  have hmsg := h.length_message
  have hlen := h.len
  rw [← hmsg] at hlen
  have halign := XmitPath.le_align ha f.len
  constructor
  · intro hl
    have hexact := hl.exact
    refine ⟨by omega, ?_⟩
    rintro rfl
    obtain rfl : alignSize = id := ha
    have hlong := h.dma_long hn hexact.symm hl.reads
    exact .inr (by omega)
  · rintro ⟨hfit, hdma⟩
    rw [Nat.mod_eq_of_lt hfit] at hlen
    have hpath : p.xmitLen f = f.len := h.xmitLen_eq fun hp => by
      have hlong := (hdma hp).resolve_left (by rw [hn]; exact Bool.false_ne_true)
      omega
    have hpadded := h.length_padded hn
    have hrun : atbmXmitLinearize f f.len = [⟨0, f.message, (f.skb.head ++ zeros f.pad).length⟩] := by
      rw [linearize_linear hn, h.take_padded hn hlen halign, Nat.sub_eq_zero_of_le (by omega), List.replicate_zero,
        List.append_nil]
    rw [hpath, hrun]
    refine ⟨fun buf hbuf => ?_, by omega, fun c hc => ?_, fun c hc => ?_⟩
    · show overwrite ([] ++ buf) ([] : List Cell).length f.message = _
      exact overwrite_append (by omega)
    · obtain rfl := List.mem_singleton.mp hc
      show f.message.length ≤ (f.skb.head ++ zeros f.pad).length
      omega
    · obtain rfl := List.mem_singleton.mp hc
      show 0 + f.message.length ≤ _
      omega

end TxQueued

/-- **The buffer of the bus gets the message, and nothing outside the frame is read, exactly when the length fits its
field and the padded length is not read from a linear frame.** -/
theorem linearized_iff {p : XmitPath} {alignSize : Nat → Nat} (ha : p.Aligns alignSize) {hdr : List UInt8}
    {key : Option HwKey} {hdrlen : Nat} {s : TxSkb} {f : TxFrame}
    (hf : atbmTxFrame p.bus alignSize hdr key hdrlen s = some f) :
    Linearized f (p.xmitLen f) (atbmXmitLinearize f (p.xmitLen f)) ↔ FitsPath p f := by
  obtain ⟨q, hq⟩ := txQueued hf
  cases hn : f.skb.nonlinear with
  | true => exact hq.linearized_nonlinear hn
  | false => exact hq.linearized_linear hn ha

/-- The frame and the linear frame with the same bytes have one payload, but for the room for an ICV. -/
def SamePayload (p : XmitPath) (alignSize : Nat → Nat) (hdr : List UInt8) (key : Option HwKey) (hdrlen : Nat)
    (s : TxSkb) (f : TxFrame) : Prop :=
  ∀ t g, s.nonlinear = true → t.head = s.bytes → t.frags = [] → atbmTxFrame p.bus alignSize hdr key hdrlen t = some g →
    g.payload = f.payload ++ List.replicate ((key.map HwKey.tail).getD 0) none

/-- **A frame is sent as its message, with the payload of the linear frame, exactly when its length fits its field and
the padded length is not read from a linear frame.** -/
theorem linearize_iff {p : XmitPath} {alignSize : Nat → Nat} (ha : p.Aligns alignSize) {hdr : List UInt8}
    (hhdr : hdr.length = p.bus.wsmTxSize) {key : Option HwKey} {hdrlen : Nat} {s : TxSkb}
    (hlen : hdrlen ≤ s.head.length) {f : TxFrame} (hf : atbmTxFrame p.bus alignSize hdr key hdrlen s = some f) :
    Linearized f (p.xmitLen f) (atbmXmitLinearize f (p.xmitLen f)) ∧ SamePayload p alignSize hdr key hdrlen s f ↔
      FitsPath p f := by
  have hsame : SamePayload p alignSize hdr key hdrlen s f :=
    fun t g hs hhead hfrags hg => payload_same hhdr hlen hs hhead hfrags hf hg
  rw [and_iff_left hsame]
  exact linearized_iff ha hf

def fragSkb : TxSkb := ⟨128, 100, List.replicate 26 (some 8), 0, [List.replicate 10 (some 1), List.replicate 7 (some 2)]⟩

def ccmpKey : HwKey := ⟨false, 8, 8, true⟩

def sdioAlign (n : Nat) : Nat := (n + 255) / 256 * 256

def ccmpFrame (p : XmitPath) (alignSize : Nat → Nat) : Option TxFrame :=
  atbmTxFrame p.bus alignSize (List.replicate p.bus.wsmTxSize 0) (some ccmpKey) 24 fragSkb

theorem ccmpFrame_sdio : (ccmpFrame (.sdio true) sdioAlign).isSome := by decide +kernel

theorem ccmpFrame_usbDma : (ccmpFrame .usbDma id).isSome := by decide +kernel

theorem linearize_iff_ccmp :
    let f := (ccmpFrame (.sdio true) sdioAlign).get ccmpFrame_sdio
    Linearized f f.len (atbmXmitLinearize f f.len) := by
  intro f
  have ha : (XmitPath.sdio true).Aligns sdioAlign := by
    intro n
    rw [sdioAlign]
    omega
  have hf := (Option.some_get ccmpFrame_sdio).symm
  exact ((linearize_iff ha List.length_replicate (by decide) hf).mpr (by decide +kernel)).1

/-- The same frame on USB with a DMA buffer alone: it is made linear for its tail, and 1538 bytes are read of it. -/
theorem padded_length_read : ¬ ∀ (p : XmitPath) (alignSize : Nat → Nat) (hdr : List UInt8) (key : Option HwKey)
    (hdrlen : Nat) (s : TxSkb) (f : TxFrame), p.Aligns alignSize → hdr.length = p.bus.wsmTxSize →
      hdrlen ≤ s.head.length → atbmTxFrame p.bus alignSize hdr key hdrlen s = some f →
        Linearized f (p.xmitLen f) (atbmXmitLinearize f (p.xmitLen f)) := by
  intro h
  have hf := (Option.some_get ccmpFrame_usbDma).symm
  have ha : XmitPath.usbDma.Aligns id := rfl
  have hfits := (linearized_iff ha hf).mp (h .usbDma id _ _ _ _ _ ha List.length_replicate (by decide) hf)
  revert hfits
  decide +kernel

end AtbmWifi
