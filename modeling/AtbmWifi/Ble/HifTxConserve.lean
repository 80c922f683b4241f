import AtbmWifi.Ble.HifTx

/-!
# What the transmit queue keeps

`HifEffect` says once what a step of a call does to the semaphore, the buffer, the queue,
the pools and the work that is left; the invariants are read off it.
-/

namespace AtbmWifi

open Transition

namespace HifPc

/-- The call has decremented `sem_ioctl_stat`. -/
def holds : HifPc → Bool
  | .get | .clear _ | .copy _ | .copyAcl _ _ _ _ | .setLen _ _ | .ioctl _ | .post _ | .postNull | .bug _ => true
  | _ => false

def inHand : HifPc → List (List UInt8)
  | .clear pkt | .copy pkt | .copyAcl pkt _ _ _ | .setLen pkt _ | .ioctl pkt | .bug pkt => [pkt.data.body]
  | _ => []

def drains : HifPc → Bool
  | .enter _ _ | .insert _ | .postNull | .done _ => false
  | _ => true

def items : HifPc → List HifItem
  | .enter d _ => d.items
  | .insert pkt | .clear pkt | .copy pkt | .copyAcl pkt _ _ _ | .setLen pkt _ | .ioctl pkt | .post pkt
  | .freeData pkt | .bug pkt => pkt.data.items
  | _ => []

def nodes : HifPc → List Nat
  | .insert pkt | .clear pkt | .copy pkt | .copyAcl pkt _ _ _ | .setLen pkt _ | .ioctl pkt | .post pkt
  | .freeData pkt | .bug pkt => [pkt.node]
  | .freeNode node | .abort node => [node]
  | _ => []

end HifPc

/-- `os_mbuf_trim_front` keeps the mbuf with the packet header. -/
def HifData.Keeps : HifData → Prop
  | .cmd _ => True
  | .acl om rest => (osMbufTrimFront om rest).moved = false

/-- The packet is not more than `HCI_ACL_SHARE_SIZE`. -/
def HifData.Fits (d : HifData) : Prop := d.bytes.length ≤ hciAclShareSize

namespace HifPc

def Keeps : HifPc → Prop
  | .enter d _ => d.Keeps
  | .insert pkt | .clear pkt | .copy pkt => pkt.data.Keeps
  | _ => True

def Fits : HifPc → Prop
  | .enter d _ => d.Fits
  | .insert pkt | .clear pkt | .copy pkt | .copyAcl pkt _ _ _ => pkt.data.Fits
  | .bug _ | .abort _ => False
  | _ => True

/-- What `ble_xmit_buff` has in it. -/
def BufOk (buf : List UInt8) : HifPc → Prop
  | .copy _ => buf = List.replicate xmitBuffSize 0
  | .copyAcl pkt om putLen txLen => ∃ front, pkt.data.body = front ++ om.flatMap OsMbuf.omData ∧
      front.length = putLen ∧ putLen = txLen + 1 ∧ txLen ≤ hciAclShareSize ∧
      buf = [0, 0] ++ front ++ List.replicate (xmitBuffSize - 2 - putLen) 0
  | .setLen pkt putLen => putLen = pkt.data.body.length ∧ pkt.data.Fits ∧
      buf = [0, 0] ++ pkt.data.body ++ List.replicate (xmitBuffSize - 2 - putLen) 0
  | .ioctl pkt => pkt.data.Fits ∧ buf = hifFrame pkt.data.body
  | _ => True

def cost (d : HifData) : Nat := 10 + d.items.length

/-- The steps that are left to a call, but for those with packets of the queue. -/
def rank : HifPc → Nat
  | .enter d _ => 5 + cost d
  | .insert pkt => 4 + cost pkt.data
  | .wait => 3
  | .get => 2
  | .clear pkt => 1 + cost pkt.data
  | .copy pkt => cost pkt.data
  | .copyAcl _ om _ _ => 9 + om.length
  | .setLen _ _ => 8
  | .ioctl _ => 7
  | .post _ => 6
  | .freeData _ => 5
  | .freeNode _ => 4
  | .postNull => 1
  | .done _ | .bug _ | .abort _ => 0

theorem bufOk_of_not_holds {pc : HifPc} (h : pc.holds = false) (buf : List UInt8) : pc.BufOk buf := by
  cases pc <;> trivial

theorem inHand_of_not_holds {pc : HifPc} (h : pc.holds = false) : pc.inHand = [] := by
  cases pc <;> first | rfl | cases h

end HifPc

theorem blit_zeros (pre bs : List UInt8) (n : Nat) :
    blit pre.length bs (pre ++ List.replicate n 0) = pre ++ bs ++ List.replicate (n - bs.length) 0 := by
  unfold blit
  have hlen : pre.length + bs.length - pre.length = bs.length := by omega
  rw [List.take_left' rfl, List.drop_append, List.drop_eq_nil_of_le (by omega), List.drop_replicate, hlen,
    List.nil_append]

theorem blit_front (a b : UInt8) (bs rest : List UInt8) (h : bs.length = 2) : blit 0 bs ([a, b] ++ rest) = bs ++ rest := by
  unfold blit
  rw [h]
  rfl

theorem HciCmd.length_take (c : HciCmd) : (c.data.take c.txLen).length = c.txLen := by
  rw [List.length_take, c.room, HciCmd.txLen]
  have := (c.data.getD 2 0).toNat_lt
  omega

theorem HifData.cmd_fits (c : HciCmd) : (HifData.cmd c).Fits := by
  show (c.data.take c.txLen).length ≤ 1538
  rw [c.length_take, HciCmd.txLen]
  have := (c.data.getD 2 0).toNat_lt
  omega

theorem osMbufTrimEmpty_append (l : List OsMbuf) : (osMbufTrimEmpty l).1 ++ (osMbufTrimEmpty l).2 = l := by
  induction l with
  | nil => rfl
  | cons cur next ih =>
    unfold osMbufTrimEmpty
    split
    · exact congrArg (cur :: ·) ih
    · rfl

theorem osMbufTrimEmpty_data (l : List OsMbuf) :
    (osMbufTrimEmpty l).2.flatMap OsMbuf.omData = l.flatMap OsMbuf.omData := by
  induction l with
  | nil => rfl
  | cons cur next ih =>
    unfold osMbufTrimEmpty
    split
    · next h => rw [List.flatMap_cons, List.eq_nil_of_length_eq_zero h, List.nil_append, ih]
    · rfl

section
variable (om : OsMbuf) (rest : List OsMbuf)

theorem osMbufTrimFront_data :
    (osMbufTrimFront om rest).rest.flatMap OsMbuf.omData = rest.flatMap OsMbuf.omData ∧
      ((osMbufTrimFront om rest).moved = true → om.omData = []) := by
  unfold osMbufTrimFront
  split
  · exact ⟨rfl, nofun⟩
  · next h =>
    have hnil : om.omData = [] := List.eq_nil_of_length_eq_zero (not_not.mp h)
    have hdata := osMbufTrimEmpty_data rest
    simp only
    split
    · next hr => exact ⟨by rw [← hdata, hr], nofun⟩
    · next hr =>
      rw [← hdata, hr]
      split
      · exact ⟨rfl, fun _ => hnil⟩
      · exact ⟨rfl, nofun⟩

theorem osMbufTrimFront_length : (osMbufTrimFront om rest).rest.length ≤ rest.length := by
  have hlen := congrArg List.length (osMbufTrimEmpty_append rest)
  rw [List.length_append] at hlen
  unfold osMbufTrimFront
  split
  · exact Nat.le_refl _
  · simp only
    split
    · next hr =>
      rw [hr] at hlen
      simp
    · split <;> (simp only; omega)

theorem osMbufTrimFront_keeps (h : (osMbufTrimFront om rest).moved = false) :
    (osMbufTrimFront om rest).freed ++ (osMbufTrimFront om rest).rest = rest := by
  have happ := osMbufTrimEmpty_append rest
  unfold osMbufTrimFront at h ⊢
  split
  · rfl
  · next hlen =>
    rw [if_neg hlen] at h
    simp only at h ⊢
    split
    · next hr => rwa [hr] at happ
    · next hr =>
      simp only [hr] at h
      split
      · next hroom =>
        rw [if_pos hroom] at h
        cases h
      · exact happ

end

def HifPkt.body (pkt : HifPkt) : List UInt8 := pkt.data.body

def HifPkt.items (pkt : HifPkt) : List HifItem := pkt.data.items

/-- What the step of call `i` from `pc` to `pc'` does. -/
structure HifEffect (i : Nat) (pc : HifPc) (s t : HifTx) (pc' : HifPc) : Prop where
  calls : t.calls = s.calls.set i pc'
  given : t.given = s.given
  sem : t.sem = s.sem ∧ pc'.holds = pc.holds ∨
    s.sem = none ∧ pc.holds = false ∧ t.sem = some i ∧ pc'.holds = true ∨
    pc.holds = true ∧ t.sem = none ∧ pc'.holds = false
  buf : t.xmitBuff = s.xmitBuff ∨ pc.holds = true
  bufOk : pc'.BufOk t.xmitBuff
  /-- packets are linked at the end of the queue; they leave it at the front, for the holder of the semaphore -/
  order : (pc'.inHand = pc.inHand ∧ t.written = s.written ∧ ∃ new, t.accepted = s.accepted ++ new ∧
      t.hifTxPkt.map HifPkt.body = s.hifTxPkt.map HifPkt.body ++ new) ∨
    (pc.holds = true ∧ t.accepted = s.accepted ∧ ∃ out, t.written = s.written ++ out.map hifFrame ∧
      (∀ b ∈ out, b.length ≤ hciAclShareSize + 1) ∧
      pc.inHand ++ s.hifTxPkt.map HifPkt.body = out ++ pc'.inHand ++ t.hifTxPkt.map HifPkt.body)
  nodes : (t.pool ++ t.hifTxPkt.map HifPkt.node ++ pc'.nodes).Perm (s.pool ++ s.hifTxPkt.map HifPkt.node ++ pc.nodes)
  items : pc.Keeps → (t.returned ++ t.hifTxPkt.flatMap HifPkt.items ++ pc'.items).Perm
    (s.returned ++ s.hifTxPkt.flatMap HifPkt.items ++ pc.items)
  keeps : pc.Keeps → (∀ pkt ∈ s.hifTxPkt, pkt.data.Keeps) → pc'.Keeps ∧ ∀ pkt ∈ t.hifTxPkt, pkt.data.Keeps
  fits : pc.Fits → (∀ pkt ∈ s.hifTxPkt, pkt.data.Fits) → pc'.Fits ∧ ∀ pkt ∈ t.hifTxPkt, pkt.data.Fits
  drains : pc'.drains = true ∨ t.hifTxPkt = [] ∨ pc.drains = false ∧ t.hifTxPkt = s.hifTxPkt
  work : (t.hifTxPkt.map fun pkt => HifPc.cost pkt.data).sum + pc'.rank <
    (s.hifTxPkt.map fun pkt => HifPc.cost pkt.data).sum + pc.rank

section
variable {i : Nat} {pc pc' : HifPc} {s : HifTx}

theorem HifEffect.quiet {sem : Option Nat} {buf : List UInt8}
    (hsem : sem = s.sem ∧ pc'.holds = pc.holds ∨ s.sem = none ∧ pc.holds = false ∧ sem = some i ∧ pc'.holds = true ∨
      pc.holds = true ∧ sem = none ∧ pc'.holds = false)
    (hbuf : buf = s.xmitBuff ∨ pc.holds = true) (hok : pc'.BufOk buf)
    (hsame : pc'.inHand = pc.inHand ∧ pc'.items = pc.items ∧ pc'.nodes = pc.nodes) (hkeeps : pc.Keeps → pc'.Keeps)
    (hfits : pc.Fits → pc'.Fits) (hdrains : pc'.drains = true ∨ s.hifTxPkt = [] ∨ pc.drains = false)
    (hrank : pc'.rank < pc.rank) :
    HifEffect i pc s (({ s with sem, xmitBuff := buf } : HifTx).goto i pc') pc' := by
  obtain ⟨hhand, hitems, hnodes⟩ := hsame
  refine ⟨rfl, rfl, hsem, hbuf, hok, .inl ⟨hhand, rfl, [], ?_, ?_⟩, ?_, fun _ => ?_, fun hk hq => ⟨hkeeps hk, hq⟩,
    fun hk hq => ⟨hfits hk, hq⟩, hdrains.imp_right (.imp_right (⟨·, rfl⟩)), ?_⟩
  · exact (List.append_nil _).symm
  · exact (List.append_nil _).symm
  · rw [hnodes]
    exact .refl _
  · rw [hitems]
    exact .refl _
  · exact Nat.add_lt_add_left hrank _

theorem HifEffect.dismiss (d : HifData) (pktLen rc : Nat) :
    HifEffect i (.enter d pktLen) s ((s.free d.items).goto i (.done rc)) (.done rc) := by
  refine ⟨rfl, rfl, .inl ⟨rfl, rfl⟩, .inl rfl, trivial,
    .inl ⟨rfl, rfl, [], (List.append_nil _).symm, (List.append_nil _).symm⟩, .refl _, fun _ => ?_,
    fun _ hq => ⟨trivial, hq⟩, fun _ hq => ⟨trivial, hq⟩, .inr (.inr ⟨rfl, rfl⟩), ?_⟩
  · rw [List.perm_iff_count]
    intro a
    simp only [HifTx.goto, HifTx.free, HifPc.items, List.count_append, List.count_nil]
    omega
  · exact Nat.add_lt_add_left (by simp only [HifPc.rank]; omega) _

theorem HifEffect.memblockGet (d : HifData) (pktLen : Nat) :
    ∃ pc', HifEffect i (.enter d pktLen) s (s.osMemblockGet i d) pc' := by
  unfold HifTx.osMemblockGet
  split
  · exact ⟨_, .dismiss d pktLen bleErrMemCapacity⟩
  · next node pool hp =>
    refine ⟨.insert ⟨node, d⟩, rfl, rfl, .inl ⟨rfl, rfl⟩, .inl rfl, trivial,
      .inl ⟨rfl, rfl, [], (List.append_nil _).symm, (List.append_nil _).symm⟩, ?_, fun _ => .refl _,
      fun hk hq => ⟨hk, hq⟩, fun hk hq => ⟨hk, hq⟩, .inr (.inr ⟨rfl, rfl⟩), ?_⟩
    · rw [List.perm_iff_count]
      intro a
      simp only [HifTx.goto, HifPc.nodes, hp, List.count_append, List.count_cons, List.count_nil]
      omega
    · exact Nat.add_lt_add_left (by simp only [HifPc.rank]; omega) _

theorem HifEffect.enter (d : HifData) (pktLen : Nat) :
    ∃ pc', HifEffect i (.enter d pktLen) s (s.enter i d pktLen) pc' := by
  cases d with
  | cmd c => exact HifEffect.memblockGet (.cmd c) pktLen
  | acl om rest =>
    unfold HifTx.enter
    simp only
    split
    · exact ⟨_, .dismiss (.acl om rest) pktLen 0⟩
    · exact HifEffect.memblockGet (.acl om rest) pktLen

theorem HifEffect.insertTail (pkt : HifPkt) : HifEffect i (.insert pkt) s (s.insertTail i pkt) .wait := by
  refine ⟨rfl, rfl, .inl ⟨rfl, rfl⟩, .inl rfl, trivial, .inl ⟨rfl, rfl, [pkt.body], rfl, ?_⟩, ?_, fun _ => ?_,
    fun hk hq => ⟨trivial, ?_⟩, fun hk hq => ⟨trivial, ?_⟩, .inl rfl, ?_⟩
  · exact List.map_append
  · rw [List.perm_iff_count]
    intro a
    simp only [HifTx.insertTail, HifTx.goto, HifPc.nodes, List.map_append, List.map_cons, List.map_nil,
      List.count_append, List.count_nil]
    omega
  · rw [List.perm_iff_count]
    intro a
    simp only [HifTx.insertTail, HifTx.goto, HifPc.items, HifPkt.items, List.flatMap_append, List.flatMap_cons,
      List.flatMap_nil, List.count_append, List.count_nil]
    omega
  · exact List.forall_mem_append.mpr ⟨hq, List.forall_mem_singleton.mpr hk⟩
  · exact List.forall_mem_append.mpr ⟨hq, List.forall_mem_singleton.mpr hk⟩
  · simp only [HifTx.insertTail, HifTx.goto, HifPc.rank, List.map_append, List.map_cons, List.map_nil,
      List.sum_append, List.sum_cons, List.sum_nil]
    omega

theorem HifEffect.pktGet : ∃ pc', HifEffect i .get s (s.bleHciTransTxPktGet i) pc' := by
  unfold HifTx.bleHciTransTxPktGet
  split
  · next hq =>
    exact ⟨.postNull, .quiet (.inl ⟨rfl, rfl⟩) (.inl rfl) trivial ⟨rfl, rfl, rfl⟩ id id (.inr (.inl hq)) (by decide)⟩
  · next pkt q hq =>
    refine ⟨.clear pkt, rfl, rfl, .inl ⟨rfl, rfl⟩, .inl rfl, trivial,
      .inr ⟨rfl, rfl, [], (List.append_nil _).symm, nofun, ?_⟩, ?_, fun _ => ?_, fun _ hk => ?_, fun _ hk => ?_,
      .inl rfl, ?_⟩
    · simp only [HifTx.goto, hq]
      rfl
    · rw [List.perm_iff_count]
      intro a
      simp only [HifTx.goto, hq, HifPc.nodes, List.map_cons, List.count_append, List.count_cons, List.count_nil]
      omega
    · rw [List.perm_iff_count]
      intro a
      simp only [HifTx.goto, hq, HifPc.items, HifPkt.items, List.flatMap_cons, List.count_append, List.count_nil]
      omega
    · rw [hq] at hk
      exact List.forall_mem_cons.mp hk
    · rw [hq] at hk
      exact List.forall_mem_cons.mp hk
    · simp only [HifTx.goto, hq, HifPc.rank, List.map_cons, List.sum_cons]
      omega

theorem zeros_eq : List.replicate xmitBuffSize (0 : UInt8) = [0, 0] ++ List.replicate (xmitBuffSize - 2) 0 := rfl

theorem blit_type (type : UInt8) : blit 2 [type] (List.replicate xmitBuffSize 0) =
    [0, 0] ++ [type] ++ List.replicate (xmitBuffSize - 2 - 1) 0 := by
  rw [zeros_eq]
  exact blit_zeros [0, 0] [type] _

variable {node : Nat} {pkt : HifPkt}

theorem HifEffect.copyCmd {c : HciCmd} (hb : s.xmitBuff = List.replicate xmitBuffSize 0) :
    HifEffect i (.copy ⟨node, .cmd c⟩) s (s.bleHciTransCopyData i ⟨node, .cmd c⟩)
      (.setLen ⟨node, .cmd c⟩ (1 + c.txLen)) := by
  have hbuf : blit 3 (c.data.take c.txLen) (blit 2 [1] s.xmitBuff) = [0, 0] ++ ([1] ++ c.data.take c.txLen) ++
      List.replicate (xmitBuffSize - 2 - (1 + c.txLen)) 0 := by
    have h := blit_zeros ([0, 0] ++ [1]) (c.data.take c.txLen) (xmitBuffSize - 2 - 1)
    rw [hb, blit_type, ← List.append_assoc, ← Nat.sub_sub]
    rw [c.length_take] at h
    exact h
  refine .quiet (.inl ⟨rfl, rfl⟩) (.inr rfl) ⟨?_, HifData.cmd_fits c, hbuf⟩ ⟨rfl, rfl, rfl⟩ (fun _ => trivial)
    (fun _ => trivial) (.inl rfl) ?_
  · show 1 + c.txLen = (c.data.take c.txLen).length + 1
    rw [c.length_take, Nat.add_comm]
  · show 8 < 10 + 1
    omega

theorem HifEffect.copyChain {om : OsMbuf} {rest : List OsMbuf} (hb : s.xmitBuff = List.replicate xmitBuffSize 0) :
    ∃ pc', HifEffect i (.copy ⟨node, .acl om rest⟩) s (s.bleHciTransCopyData i ⟨node, .acl om rest⟩) pc' := by
  obtain ⟨hdata, hmoved⟩ := osMbufTrimFront_data om rest
  have hlen := osMbufTrimFront_length om rest
  have hkeeps := osMbufTrimFront_keeps om rest
  simp only [HifTx.bleHciTransCopyData]
  generalize hT : osMbufTrimFront om rest = T at hdata hmoved hlen hkeeps
  have hbody : HifData.body (.acl om T.rest) = HifData.body (.acl om rest) := by
    show (2 : UInt8) :: (om :: T.rest).flatMap OsMbuf.omData = 2 :: (om :: rest).flatMap OsMbuf.omData
    rw [List.flatMap_cons, List.flatMap_cons, hdata]
  have hchain : (if T.moved then T.rest else om :: T.rest).flatMap OsMbuf.omData =
      (om :: T.rest).flatMap OsMbuf.omData := by
    split
    · next hm => rw [List.flatMap_cons, hmoved hm, List.nil_append]
    · rfl
  refine ⟨_, rfl, rfl, .inl ⟨rfl, rfl⟩, .inr rfl, ⟨[2], ?_, rfl, rfl, Nat.zero_le _, ?_⟩,
    .inl ⟨?_, rfl, [], (List.append_nil _).symm, (List.append_nil _).symm⟩, .refl _, fun hk => ?_,
    fun _ hq => ⟨trivial, hq⟩, fun hk hq => ⟨?_, hq⟩, .inl rfl, ?_⟩
  · rw [hchain]
    rfl
  · show blit 2 [2] s.xmitBuff = _
    rw [hb]
    exact blit_type 2
  · exact congrArg (fun b => [b]) hbody
  · have hfreed := hkeeps (hT ▸ hk)
    have hcount := fun a => congrArg (List.count a) (congrArg (List.map OsMbuf.item) hfreed)
    rw [List.perm_iff_count]
    intro a
    have := hcount a
    simp only [List.map_append, List.count_append] at this
    simp only [HifTx.goto, HifTx.free, HifPc.items, HifData.items, List.count_append, List.map_cons, List.count_cons]
    omega
  · show (HifData.bytes (.acl om T.rest)).length ≤ hciAclShareSize
    rw [show HifData.bytes (.acl om T.rest) = HifData.bytes (.acl om rest) from (List.cons.inj hbody).2]
    exact hk
  · have hle : (if T.moved then T.rest else om :: T.rest).length ≤ T.rest.length + 1 := by
      split
      · omega
      · exact Nat.le_refl _
    apply Nat.add_lt_add_left
    simp only [HifPc.rank, HifPc.cost, HifData.items, List.length_map, List.length_cons]
    omega

theorem HifEffect.copyMbuf {om : List OsMbuf} {putLen txLen : Nat}
    (hb : (HifPc.copyAcl pkt om putLen txLen).BufOk s.xmitBuff) :
    ∃ pc', HifEffect i (.copyAcl pkt om putLen txLen) s (s.copyMbuf i pkt om putLen txLen) pc' := by
  obtain ⟨front, hbody, hput, htx, hle, hbuf⟩ := hb
  cases om with
  | nil =>
    rw [List.flatMap_nil, List.append_nil] at hbody
    refine ⟨.setLen pkt putLen, .quiet (.inl ⟨rfl, rfl⟩) (.inl rfl) ⟨?_, ?_, ?_⟩ ⟨rfl, rfl, rfl⟩ (fun _ => trivial)
      (fun _ => trivial) (.inl rfl) ?_⟩
    · rw [hbody, hput]
    · have hlen := congrArg List.length hbody
      simp only [HifData.body, List.length_cons] at hlen
      show pkt.data.bytes.length ≤ hciAclShareSize
      omega
    · rw [hbuf, hbody]
    · show 8 < 9
      omega
  | cons m om =>
    have hsplit : pkt.data.body = (front ++ m.omData) ++ om.flatMap OsMbuf.omData := by
      rw [hbody, List.flatMap_cons, List.append_assoc]
    unfold HifTx.copyMbuf
    simp only
    split
    · next hbig =>
      refine ⟨.bug pkt, .quiet (.inl ⟨rfl, rfl⟩) (.inl rfl) trivial ⟨rfl, rfl, rfl⟩ (fun _ => trivial) (fun hfit => ?_)
        (.inl rfl) ?_⟩
      · have hfit : pkt.data.bytes.length ≤ hciAclShareSize := hfit
        have hlen := congrArg List.length hsplit
        simp only [HifData.body, List.length_cons, List.length_append] at hlen
        omega
      · exact Nat.succ_pos _
    · next hsmall =>
      refine ⟨_, .quiet (.inl ⟨rfl, rfl⟩) (.inr rfl) ⟨front ++ m.omData, hsplit, ?_, ?_, by omega, ?_⟩ ⟨rfl, rfl, rfl⟩
        (fun _ => trivial) id (.inl rfl) ?_⟩
      · rw [List.length_append, hput]
      · omega
      · have h := blit_zeros ([0, 0] ++ front) m.omData (xmitBuffSize - 2 - putLen)
        rw [List.length_append, hput, Nat.sub_sub _ putLen, List.append_assoc [0, 0] front m.omData] at h
        rw [hbuf]
        exact h
      · exact Nat.lt_succ_self _

theorem HifEffect.setLen {putLen : Nat} (hb : (HifPc.setLen pkt putLen).BufOk s.xmitBuff) :
    HifEffect i (.setLen pkt putLen) s (s.run i (.setLen pkt putLen)) (.ioctl pkt) := by
  obtain ⟨hput, hfit, hbuf⟩ := hb
  refine .quiet (.inl ⟨rfl, rfl⟩) (.inr rfl) ⟨hfit, ?_⟩ ⟨rfl, rfl, rfl⟩ (fun _ => trivial) (fun _ => trivial)
    (.inl rfl) ?_
  · rw [hbuf, List.append_assoc, blit_front 0 0 _ _ rfl, hput, ← List.append_assoc]
    rfl
  · exact Nat.lt_succ_self _

theorem HifEffect.ioctl (hb : (HifPc.ioctl pkt).BufOk s.xmitBuff) :
    HifEffect i (.ioctl pkt) s (s.run i (.ioctl pkt)) (.post pkt) := by
  obtain ⟨hfit, hbuf⟩ := hb
  refine ⟨rfl, rfl, .inl ⟨rfl, rfl⟩, .inl rfl, trivial, .inr ⟨rfl, rfl, [pkt.body], ?_, ?_, rfl⟩, .refl _,
    fun _ => .refl _, fun _ hq => ⟨trivial, hq⟩, fun _ hq => ⟨trivial, hq⟩, .inl rfl, ?_⟩
  · exact congrArg (fun b => s.written ++ [b]) hbuf
  · exact List.forall_mem_singleton.mpr (Nat.succ_le_succ hfit)
  · exact Nat.lt_succ_self _

theorem HifEffect.freeData (pkt : HifPkt) :
    HifEffect i (.freeData pkt) s (s.run i (.freeData pkt)) (.freeNode pkt.node) := by
  refine ⟨rfl, rfl, .inl ⟨rfl, rfl⟩, .inl rfl, trivial,
    .inl ⟨rfl, rfl, [], (List.append_nil _).symm, (List.append_nil _).symm⟩, .refl _, fun _ => ?_,
    fun _ hq => ⟨trivial, hq⟩, fun _ hq => ⟨trivial, hq⟩, .inl rfl, Nat.lt_succ_self _⟩
  rw [List.perm_iff_count]
  intro a
  simp only [HifTx.run, HifTx.goto, HifTx.free, HifPc.items, List.count_append, List.count_nil]
  omega

theorem HifEffect.memblockPut (hn : node ∉ s.pool) : HifEffect i (.freeNode node) s (s.osMemblockPut i node) .wait := by
  unfold HifTx.osMemblockPut
  rw [if_neg hn]
  refine ⟨rfl, rfl, .inl ⟨rfl, rfl⟩, .inl rfl, trivial,
    .inl ⟨rfl, rfl, [], (List.append_nil _).symm, (List.append_nil _).symm⟩, ?_, fun _ => .refl _,
    fun _ hq => ⟨trivial, hq⟩, fun _ hq => ⟨trivial, hq⟩, .inl rfl, Nat.lt_succ_self _⟩
  rw [List.perm_iff_count]
  intro a
  simp only [HifTx.goto, HifPc.nodes, List.count_append, List.count_cons, List.count_nil]
  omega

theorem HifTx.effect (hready : pc.ready s.sem = true) (hb : pc.BufOk s.xmitBuff)
    (hn : ∀ node, pc = .freeNode node → node ∉ s.pool) : ∃ pc', HifEffect i pc s (s.run i pc) pc' := by
  cases pc with
  | enter d pktLen => exact HifEffect.enter d pktLen
  | insert pkt => exact ⟨_, .insertTail pkt⟩
  | wait =>
    have hsem : s.sem = none := Option.isNone_iff_eq_none.mp hready
    exact ⟨.get, .quiet (.inr (.inl ⟨hsem, rfl, rfl, rfl⟩)) (.inl rfl) trivial ⟨rfl, rfl, rfl⟩ id id (.inl rfl)
      (by decide)⟩
  | get => exact HifEffect.pktGet
  | clear pkt =>
    exact ⟨.copy pkt, .quiet (.inl ⟨rfl, rfl⟩) (.inr rfl) rfl ⟨rfl, rfl, rfl⟩ id id (.inl rfl)
      (by simp only [HifPc.rank]; omega)⟩
  | copy pkt =>
    obtain ⟨node, data⟩ := pkt
    cases data with
    | cmd c => exact ⟨_, .copyCmd hb⟩
    | acl om rest => exact HifEffect.copyChain hb
  | copyAcl pkt om putLen txLen => exact HifEffect.copyMbuf hb
  | setLen pkt putLen => exact ⟨_, .setLen hb⟩
  | ioctl pkt => exact ⟨_, .ioctl hb⟩
  | post pkt =>
    exact ⟨.freeData pkt, .quiet (.inr (.inr ⟨rfl, rfl, rfl⟩)) (.inl rfl) trivial ⟨rfl, rfl, rfl⟩ id id
      (.inl rfl) (Nat.lt_succ_self _)⟩
  | freeData pkt => exact ⟨_, .freeData pkt⟩
  | freeNode node => exact ⟨_, .memblockPut (hn node rfl)⟩
  | postNull =>
    exact ⟨.done 0, .quiet (.inr (.inr ⟨rfl, rfl, rfl⟩)) (.inl rfl) trivial ⟨rfl, rfl, rfl⟩ id id
      (.inr (.inr rfl)) (by decide)⟩
  | done rc => cases hready
  | bug pkt => cases hready
  | abort node => cases hready

end

namespace HifTx

/-- Who holds the semaphore is at a place that says so, and the buffer has what that place says. -/
structure Locked (s : HifTx) : Prop where
  holder : ∀ (i : Nat) (pc : HifPc), s.calls[i]? = some pc → (pc.holds = true ↔ s.sem = some i)
  there : ∀ i, s.sem = some i → i < s.calls.length
  bufOk : ∀ (i : Nat) (pc : HifPc), s.calls[i]? = some pc → pc.BufOk s.xmitBuff

/-- What was linked to the queue is what was written, what is in hand and what the queue has. -/
def Ordered (s : HifTx) : Prop :=
  ∃ sent, s.accepted = sent ++ s.calls.flatMap HifPc.inHand ++ s.hifTxPkt.map HifPkt.body ∧
    s.written = sent.map hifFrame ∧ ∀ b ∈ sent, b.length ≤ hciAclShareSize + 1

/-- A node is in the pool, in the queue, or with one call. -/
def Stocked (nodes : List Nat) (s : HifTx) : Prop :=
  (s.pool ++ s.hifTxPkt.map HifPkt.node ++ s.calls.flatMap HifPc.nodes).Perm nodes

/-- What was handed over is given back, in the queue, or with one call. -/
def Balanced (s : HifTx) : Prop :=
  (s.returned ++ s.hifTxPkt.flatMap HifPkt.items ++ s.calls.flatMap HifPc.items).Perm s.given

/-- What holds of all packets that are not written. -/
def Each (P : HifPc → Prop) (Q : HifData → Prop) (s : HifTx) : Prop :=
  (∀ (i : Nat) (pc : HifPc), s.calls[i]? = some pc → P pc) ∧ ∀ pkt ∈ s.hifTxPkt, Q pkt.data

/-- A queue that is not empty has a call that drains it. -/
def Drained (s : HifTx) : Prop :=
  s.hifTxPkt ≠ [] → ∃ (i : Nat) (pc : HifPc), s.calls[i]? = some pc ∧ pc.drains = true

def work (s : HifTx) : Nat :=
  (s.hifTxPkt.map fun pkt => HifPc.cost pkt.data).sum + (s.calls.map HifPc.rank).sum

end HifTx

namespace HifEffect

variable {i : Nat} {pc pc' : HifPc} {s t : HifTx}

theorem lt (hpc : s.calls[i]? = some pc) : i < s.calls.length := (List.getElem?_eq_some_iff.mp hpc).1

theorem call_cases (h : HifEffect i pc s t pc') (hpc : s.calls[i]? = some pc) {j : Nat} {z : HifPc}
    (hz : t.calls[j]? = some z) : j = i ∧ z = pc' ∨ j ≠ i ∧ s.calls[j]? = some z := by
  rw [h.calls] at hz
  by_cases hj : j = i
  · subst hj
    rw [List.getElem?_set_self (lt hpc)] at hz
    exact .inl ⟨rfl, (Option.some.inj hz).symm⟩
  · rw [List.getElem?_set_ne (Ne.symm hj)] at hz
    exact .inr ⟨hj, hz⟩

theorem sem_other (h : HifEffect i pc s t pc') (hl : s.Locked) (hpc : s.calls[i]? = some pc) {j : Nat} (hj : j ≠ i) :
    t.sem = some j ↔ s.sem = some j := by
  rcases h.sem with ⟨hs, -⟩ | ⟨hs, -, ht, -⟩ | ⟨hh, ht, -⟩
  · rw [hs]
  · rw [hs, ht]
    exact ⟨fun h0 => absurd (Option.some.inj h0).symm hj, nofun⟩
  · rw [ht, (hl.holder i pc hpc).mp hh]
    exact ⟨nofun, fun h0 => absurd (Option.some.inj h0).symm hj⟩

theorem sem_self (h : HifEffect i pc s t pc') (hl : s.Locked) (hpc : s.calls[i]? = some pc) :
    pc'.holds = true ↔ t.sem = some i := by
  rcases h.sem with ⟨hs, hh⟩ | ⟨-, -, ht, hh⟩ | ⟨-, ht, hh⟩
  · rw [hs, hh]
    exact hl.holder i pc hpc
  · exact ⟨fun _ => ht, fun _ => hh⟩
  · rw [ht, hh]
    exact ⟨nofun, nofun⟩

theorem other_holds (hl : s.Locked) (hpc : s.calls[i]? = some pc) (hh : pc.holds = true) {j : Nat} {z : HifPc}
    (hj : j ≠ i) (hz : s.calls[j]? = some z) : z.holds = false := by
  rw [Bool.eq_false_iff]
  intro hzh
  have := ((hl.holder i pc hpc).mp hh).symm.trans ((hl.holder j z hz).mp hzh)
  exact hj (Option.some.inj this).symm

theorem locked (h : HifEffect i pc s t pc') (hl : s.Locked) (hpc : s.calls[i]? = some pc) : t.Locked where
  holder j z hz := by
    rcases h.call_cases hpc hz with ⟨rfl, rfl⟩ | ⟨hj, hz⟩
    · exact h.sem_self hl hpc
    · rw [h.sem_other hl hpc hj]
      exact hl.holder j z hz
  there j hj := by
    rw [h.calls, List.length_set]
    by_cases hji : j = i
    · subst hji
      exact lt hpc
    · exact hl.there j ((h.sem_other hl hpc hji).mp hj)
  bufOk j z hz := by
    rcases h.call_cases hpc hz with ⟨rfl, rfl⟩ | ⟨hj, hz⟩
    · exact h.bufOk
    · rcases h.buf with hb | hh
      · rw [hb]
        exact hl.bufOk j z hz
      · exact HifPc.bufOk_of_not_holds (other_holds hl hpc hh hj hz) _

theorem ordered (h : HifEffect i pc s t pc') (hl : s.Locked) (hpc : s.calls[i]? = some pc) (ho : s.Ordered) :
    t.Ordered := by
  obtain ⟨sent, hacc, hwr, hlen⟩ := ho
  rcases h.order with ⟨hhand, hw, new, ha, hq⟩ | ⟨hh, ha, out, hw, hout, hq⟩
  · refine ⟨sent, ?_, hw.trans hwr, hlen⟩
    rw [ha, hq, hacc, h.calls, flatMap_set_same hpc hhand]
    simp only [List.append_assoc]
  · have halone : ∀ j z, j ≠ i → s.calls[j]? = some z → z.inHand = [] := fun j z hj hz =>
      HifPc.inHand_of_not_holds (other_holds hl hpc hh hj hz)
    refine ⟨sent ++ out, ?_, ?_, List.forall_mem_append.mpr ⟨hlen, hout⟩⟩
    · rw [ha, hacc, h.calls, flatMap_set_alone (lt hpc) halone, flatMap_alone hpc halone, List.append_assoc, hq]
      simp only [List.append_assoc]
    · rw [hw, hwr, List.map_append]

theorem stocked {nodes : List Nat} (h : HifEffect i pc s t pc') (hpc : s.calls[i]? = some pc)
    (hs : s.Stocked nodes) : t.Stocked nodes := by
  refine List.Perm.trans ?_ hs
  rw [List.perm_iff_count]
  intro a
  have hset := count_flatMap_set HifPc.nodes hpc pc' a
  have hn := List.perm_iff_count.mp h.nodes a
  rw [h.calls]
  simp only [List.count_append] at hn ⊢
  omega

theorem balanced (h : HifEffect i pc s t pc') (hpc : s.calls[i]? = some pc) (hk : pc.Keeps) (hs : s.Balanced) :
    t.Balanced := by
  unfold HifTx.Balanced
  rw [h.given]
  refine List.Perm.trans ?_ hs
  rw [List.perm_iff_count]
  intro a
  have hset := count_flatMap_set HifPc.items hpc pc' a
  have hn := List.perm_iff_count.mp (h.items hk) a
  rw [h.calls]
  simp only [List.count_append] at hn ⊢
  omega

theorem each {P : HifPc → Prop} {Q : HifData → Prop} (h : HifEffect i pc s t pc') (hpc : s.calls[i]? = some pc)
    (hstep : P pc → (∀ pkt ∈ s.hifTxPkt, Q pkt.data) → P pc' ∧ ∀ pkt ∈ t.hifTxPkt, Q pkt.data) (he : s.Each P Q) :
    t.Each P Q := by
  obtain ⟨hcalls, hq⟩ := he
  obtain ⟨hP, hQ⟩ := hstep (hcalls i pc hpc) hq
  refine ⟨fun j z hz => ?_, hQ⟩
  rcases h.call_cases hpc hz with ⟨rfl, rfl⟩ | ⟨-, hz⟩
  · exact hP
  · exact hcalls j z hz

theorem drained (h : HifEffect i pc s t pc') (hpc : s.calls[i]? = some pc) (hd : s.Drained) : t.Drained := by
  intro hq
  have hself : t.calls[i]? = some pc' := by rw [h.calls, List.getElem?_set_self (lt hpc)]
  rcases h.drains with hp | hnil | ⟨hp, hsame⟩
  · exact ⟨i, pc', hself, hp⟩
  · exact absurd hnil hq
  · obtain ⟨j, z, hz, hzd⟩ := hd (hsame ▸ hq)
    have hj : j ≠ i := by
      rintro rfl
      obtain rfl := Option.some.inj (hz.symm.trans hpc)
      exact absurd (hp.symm.trans hzd) (by decide)
    exact ⟨j, z, by rw [h.calls, List.getElem?_set_ne (Ne.symm hj), hz], hzd⟩

theorem work_lt (h : HifEffect i pc s t pc') (hpc : s.calls[i]? = some pc) : t.work < s.work := by
  have hset := sum_map_set HifPc.rank hpc pc'
  have hw := h.work
  unfold HifTx.work
  rw [h.calls]
  omega

end HifEffect

namespace HifTx

variable {nodes : List Nat} {s : HifTx}

/-- The invariant of the queue; the accounts of what was handed over are kept apart. -/
structure Inv (nodes : List Nat) (s : HifTx) : Prop where
  locked : s.Locked
  ordered : s.Ordered
  stocked : s.Stocked nodes
  drained : s.Drained

theorem inv_start (nodes : List Nat) : Inv nodes (hifTxStart nodes) where
  locked := ⟨nofun, nofun, nofun⟩
  ordered := ⟨[], rfl, rfl, nofun⟩
  stocked := by
    show (nodes ++ [] ++ []).Perm nodes
    rw [List.append_nil, List.append_nil]
  drained h := absurd rfl h

theorem call_cases {d : HifData} {pktLen i : Nat} {pc : HifPc} (h : (s.calls ++ [HifPc.enter d pktLen])[i]? = some pc) :
    s.calls[i]? = some pc ∨ s.calls.length ≤ i ∧ pc = .enter d pktLen := by
  rcases Nat.lt_or_ge i s.calls.length with hlt | hge
  · exact .inl (by rwa [List.getElem?_append_left hlt] at h)
  · rw [List.getElem?_append_right hge] at h
    exact .inr ⟨hge, (List.mem_singleton.mp (List.mem_of_getElem? h))⟩

theorem Inv.call (h : Inv nodes s) (d : HifData) (pktLen : Nat) : Inv nodes ((HifAct.call d pktLen).next s) where
  locked := by
    refine ⟨fun i pc hpc => ?_, fun i hi => ?_, fun i pc hpc => ?_⟩
    · rcases call_cases hpc with hpc | ⟨hge, rfl⟩
      · exact h.locked.holder i pc hpc
      · refine ⟨nofun, fun hi => ?_⟩
        have := h.locked.there i hi
        omega
    · have := h.locked.there i hi
      show i < (s.calls ++ [_]).length
      rw [List.length_append]
      omega
    · rcases call_cases hpc with hpc | ⟨-, rfl⟩
      · exact h.locked.bufOk i pc hpc
      · trivial
  ordered := by
    obtain ⟨sent, hacc, hrest⟩ := h.ordered
    refine ⟨sent, ?_, hrest⟩
    show s.accepted = sent ++ (s.calls ++ [_]).flatMap HifPc.inHand ++ _
    rw [List.flatMap_append, hacc]
    exact congrArg (fun l => sent ++ l ++ _) (List.append_nil _).symm
  stocked := by
    have hs := h.stocked
    unfold Stocked at hs ⊢
    show (_ ++ _ ++ (s.calls ++ [_]).flatMap HifPc.nodes).Perm nodes
    rw [List.flatMap_append]
    exact (congrArg (fun l => List.Perm (s.pool ++ s.hifTxPkt.map HifPkt.node ++ l) nodes) (List.append_nil _)).mpr hs
  drained hq := by
    obtain ⟨i, pc, hpc, hd⟩ := h.drained hq
    have hlt : i < s.calls.length := (List.getElem?_eq_some_iff.mp hpc).1
    exact ⟨i, pc, (List.getElem?_append_left hlt).trans hpc, hd⟩

theorem Balanced.call (h : s.Balanced) (d : HifData) (pktLen : Nat) : ((HifAct.call d pktLen).next s).Balanced := by
  unfold Balanced at h ⊢
  rw [List.perm_iff_count] at h ⊢
  intro a
  have := h a
  simp only [HifAct.next, List.flatMap_append, List.flatMap_cons, List.flatMap_nil, HifPc.items, List.count_append,
    List.count_nil] at this ⊢
  omega

theorem Each.call {P : HifPc → Prop} {Q : HifData → Prop} (h : s.Each P Q) {d : HifData} {pktLen : Nat}
    (hd : P (.enter d pktLen)) : ((HifAct.call d pktLen).next s).Each P Q := by
  refine ⟨fun i pc hpc => ?_, h.2⟩
  rcases call_cases hpc with hpc | ⟨-, rfl⟩
  · exact h.1 i pc hpc
  · exact hd

theorem Inv.not_pooled (hn : nodes.Nodup) (h : Inv nodes s) {i node : Nat} (hpc : s.calls[i]? = some (.freeNode node)) :
    node ∉ s.pool := by
  intro hp
  have hnd : (s.pool ++ s.hifTxPkt.map HifPkt.node ++ s.calls.flatMap HifPc.nodes).Nodup :=
    h.stocked.nodup_iff.mpr hn
  refine (List.nodup_append.mp hnd).2.2 node (List.mem_append_left _ hp) node ?_ rfl
  exact List.mem_flatMap.mpr ⟨_, List.mem_of_getElem? hpc, List.mem_cons_self⟩

theorem Inv.step (hn : nodes.Nodup) (h : Inv nodes s) {i : Nat} (he : (HifAct.step i).enabled s) :
    ∃ pc pc', s.calls[i]? = some pc ∧ HifEffect i pc s ((HifAct.step i).next s) pc' := by
  obtain ⟨pc, hpc, hready⟩ := Option.map_eq_some_iff.mp he
  obtain ⟨pc', heff⟩ := HifTx.effect (i := i) hready (h.locked.bufOk i pc hpc)
    fun node hnode => h.not_pooled hn (hnode ▸ hpc)
  refine ⟨pc, pc', hpc, ?_⟩
  simp only [HifAct.next, hpc]
  exact heff

theorem Inv.next (hn : nodes.Nodup) (h : Inv nodes s) {a : HifAct} (he : a.enabled s) : Inv nodes (a.next s) := by
  cases a with
  | call d pktLen => exact h.call d pktLen
  | step i =>
    obtain ⟨pc, pc', hpc, heff⟩ := h.step hn he
    exact ⟨heff.locked h.locked hpc, heff.ordered h.locked hpc h.ordered, heff.stocked hpc h.stocked,
      heff.drained hpc h.drained⟩

theorem Inv.can_step (h : Inv nodes s) (hfit : s.Each HifPc.Fits HifData.Fits) {i : Nat} {pc : HifPc}
    (hpc : s.calls[i]? = some pc) (hdone : ∀ rc, pc ≠ .done rc) : ∃ j, (HifAct.step j).enabled s := by
  cases hsem : s.sem with
  | none =>
    refine ⟨i, Option.map_eq_some_iff.mpr ⟨pc, hpc, ?_⟩⟩
    rw [hsem]
    have hf := hfit.1 i pc hpc
    cases pc with
    | done rc => exact absurd rfl (hdone rc)
    | bug => exact hf.elim
    | abort => exact hf.elim
    | _ => rfl
  | some j =>
    obtain ⟨z, hz⟩ : ∃ z, s.calls[j]? = some z := ⟨_, List.getElem?_eq_getElem (h.locked.there j hsem)⟩
    refine ⟨j, Option.map_eq_some_iff.mpr ⟨z, hz, ?_⟩⟩
    have hholds := (h.locked.holder j z hz).mpr hsem
    have hf := hfit.1 j z hz
    cases z with
    | bug => exact hf.elim
    | _ => first | rfl | cases hholds

def Idle (s : HifTx) : Prop := ∀ pc ∈ s.calls, ∃ rc, pc = .done rc

theorem Idle.flatMap {α : Type} (h : s.Idle) {f : HifPc → List α} (hf : ∀ rc, f (.done rc) = []) :
    s.calls.flatMap f = [] := by
  rw [List.flatMap_eq_nil_iff]
  intro pc hpc
  obtain ⟨rc, rfl⟩ := h pc hpc
  exact hf rc

theorem Inv.empty (h : Inv nodes s) (hidle : s.Idle) : s.hifTxPkt = [] := by
  by_contra hq
  obtain ⟨i, pc, hpc, hd⟩ := h.drained hq
  obtain ⟨rc, rfl⟩ := hidle pc (List.mem_of_getElem? hpc)
  cases hd

end HifTx

def HifAct.Of (P : HifData → Prop) : HifAct → Prop
  | .call d _ => P d
  | .step _ => True

instance HifData.decKeeps : ∀ d : HifData, Decidable d.Keeps
  | .cmd _ => inferInstanceAs (Decidable True)
  | .acl om rest => inferInstanceAs (Decidable ((osMbufTrimFront om rest).moved = false))

instance HifAct.decOf (P : HifData → Prop) [DecidablePred P] : ∀ a : HifAct, Decidable (a.Of P)
  | .call d _ => inferInstanceAs (Decidable (P d))
  | .step _ => inferInstanceAs (Decidable True)

section
variable {nodes : List Nat} {s t : HifTx} {l : List (HifTx × HifAct)}

theorem HifTx.Inv.path (hn : nodes.Nodup) (h : Path (hifSending nodes) s l t) (hs : Inv nodes s) : Inv nodes t := by
  refine h.invariant ?_ hs
  rintro s a t hI ⟨he, rfl⟩
  exact hI.next hn he

theorem HifTx.Inv.path_each {P : HifPc → Prop} {Q : HifData → Prop} (hn : nodes.Nodup)
    (henter : ∀ d pktLen, Q d → P (.enter d pktLen))
    (hstep : ∀ i pc pc' s t, HifEffect i pc s t pc' → P pc → (∀ pkt ∈ s.hifTxPkt, Q pkt.data) →
      P pc' ∧ ∀ pkt ∈ t.hifTxPkt, Q pkt.data)
    (h : Path (hifSending nodes) s l t) (hs : Inv nodes s ∧ s.Each P Q) (hQ : ∀ p ∈ l, p.2.Of Q) : t.Each P Q := by
  refine (h.keep (I := fun s => Inv nodes s ∧ s.Each P Q) (C := fun _ a => a.Of Q) ?_ hQ hs).2
  rintro s a t ⟨hI, he⟩ ⟨hen, rfl⟩ ha
  refine ⟨hI.next hn hen, ?_⟩
  cases a with
  | call d pktLen => exact he.call (henter d pktLen ha)
  | step i =>
    obtain ⟨pc, pc', hpc, heff⟩ := hI.step hn hen
    exact heff.each hpc (hstep i pc pc' s _ heff) he

theorem HifTx.Inv.path_balanced (hn : nodes.Nodup) (h : Path (hifSending nodes) s l t)
    (hs : Inv nodes s ∧ s.Each HifPc.Keeps HifData.Keeps ∧ s.Balanced) (hQ : ∀ p ∈ l, p.2.Of HifData.Keeps) :
    t.Balanced := by
  refine (h.keep (I := fun s => Inv nodes s ∧ s.Each HifPc.Keeps HifData.Keeps ∧ s.Balanced)
    (C := fun _ a => a.Of HifData.Keeps) ?_ hQ hs).2.2
  rintro s a t ⟨hI, he, hb⟩ ⟨hen, rfl⟩ ha
  refine ⟨hI.next hn hen, ?_⟩
  cases a with
  | call d pktLen => exact ⟨he.call ha, hb.call d pktLen⟩
  | step i =>
    obtain ⟨pc, pc', hpc, heff⟩ := hI.step hn hen
    exact ⟨heff.each hpc heff.keeps he, heff.balanced hpc (he.1 i pc hpc) hb⟩

theorem HifTx.Inv.steps_le (hn : nodes.Nodup) {is : List Nat} (hs : Inv nodes s)
    (h : Fires HifAct.enabled HifAct.next s (is.map .step)) : is.length ≤ s.work := by
  induction is generalizing s with
  | nil => exact Nat.zero_le _
  | cons i is ih =>
    obtain ⟨pc, pc', hpc, heff⟩ := hs.step hn h.1
    have hlt := heff.work_lt hpc
    have hle := ih (hs.next hn h.1) h.2
    rw [List.length_cons]
    omega

end

theorem hifTxStart_each (nodes : List Nat) (P : HifPc → Prop) (Q : HifData → Prop) : (hifTxStart nodes).Each P Q :=
  ⟨nofun, nofun⟩

def hciReset : HciCmd where
  buf := 0
  data := [3, 12, 0] ++ List.replicate 257 0
  room := by rw [List.length_append, List.length_replicate]; rfl

/-- A reset, and an ACL packet with an empty mbuf between its header and its octets. -/
def hifTwoPkts : List HifData :=
  [.cmd hciReset, .acl ⟨1, [], 8, 0⟩ [⟨2, [], 0, 0⟩, ⟨3, [64, 0, 1, 0, 9], 0, 4⟩]]

/-- Two callers; the first writes both packets, and the second finds the queue empty meanwhile. -/
def hifTwoCallers : List HifAct :=
  hifTwoPkts.map (.call · 5) ++
    ([0, 1, 0, 1] ++ List.replicate 19 0 ++ [1, 1, 1] ++ List.replicate 5 0).map .step

end AtbmWifi
