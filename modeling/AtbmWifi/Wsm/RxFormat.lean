import AtbmWifi.Wsm.HandleRx

/-!
# What a message must be for its handler

`rxFormat` is the format of a message of each kind, read off its bytes at fixed offsets: its
fields, the acts between them, how far it is looked at behind them, and whether the
handler's error reaches anybody.
-/

namespace AtbmWifi

open Wire

structure RxFormat where
  /-- behind the header -/
  items : List Item := []
  /-- how far a buffer is looked at behind the fields -/
  reach : RxBuf → Nat := fun _ => 0
  /-- the error of a handler is passed on -/
  refuses : Bool := true

def RxMsg.num (m : RxMsg) (off n : Nat) : Nat := ofBytes (m.bytesAt .wsm off n)

open Item

def confirmItems : List Item := [get 4, get 4, get 1, get 1, get 2, get 4, get 4, act]

/-- Confirmations of as many frames as the message announces; more than one release buffers first. -/
def multiConfirmItems (m : RxMsg) : List Item :=
  get 4 ::
    if m.num 4 4 = 0 ∨ 2 ^ 31 ≤ m.num 4 4 then []
    else (if 1 < m.num 4 4 then [act] else []) ++ (List.replicate (m.num 4 4) confirmItems).flatten

def onSuccess (m : RxMsg) (l : List Item) : List Item := get 4 :: if m.num 4 4 = 0 then l else []

def startupItems (m : RxMsg) : List Item :=
  [get 2, act, get 2, act, get 2, act, get 2, act, get 2, get 2, act, get 2, act, get 2, act, get 2, act, get 2, act,
    get 128, get 4, get 4, get 4, get 4, get 2] ++ List.replicate (min 3 ((m.len - 170) / 2)) (get 2)

def cnfItems (h : RxHost) (m : RxMsg) : CnfKind → List Item
  | .readShmem => h.wsmArg.elim [] fun arg => onSuccess m [get arg.bufSize]
  | .writeShmem => h.wsmArg.elim [] fun _ => [get 4]
  | .genericReq => h.wsmArg.elim [] fun arg =>
    [get 4, get 4] ++ if m.num 4 4 = arg.reqId ∧ m.num 8 4 = 0 then [get arg.bufSize] else []
  | .configuration => h.wsmArg.elim [] fun _ => onSuccess m [get 6, act, get 1, act, skip 1, get 4, act,
    get 4, act, get 4, act, get 4, act, get 4, act, get 4, act, get 4, act]
  | .readMib => h.wsmArg.elim [] fun arg => onSuccess m
    (get 2 :: if m.num 8 2 = arg.mibId then [get 2, get (min (m.num 10 2) arg.bufSize)] else [])
  | .writeMib => h.wsmArg.elim [] fun _ => [get 4]
  | .join => h.wsmArg.elim [] fun _ => onSuccess m [get 4, act, get 4, act]
  | .requestBuffer => h.wsmArg.elim [] fun _ => requestBufferItems m h h.apVifs 4
  | .efuse | .stopScan | .generic => [get 4]
  | .unknown => []
where
  /-- Each interface that is an AP takes its five bytes. -/
  requestBufferItems (m : RxMsg) (h : RxHost) : List Nat → Nat → List Item
    | [], _ => []
    | i :: l, off =>
      [get 4, get 1] ++ (if (h.vifList i).any fun v => v.staAsleepMask != m.num off 4 then [act, act] else [act]) ++
        requestBufferItems m h l (off + 5)

def RxMsg.wsmRx (m : RxMsg) : WsmRx := ⟨m.num 4 4, m.num 8 2, m.num 10 1, m.num 11 1, m.num 12 4, m.num 16 4⟩

def rxFormat (b : RxBuild) (h : RxHost) (m : RxMsg) : RxFormat :=
  match rxKind b.sdio (stripLinkId m.id) with
  | .txConfirm => { items := confirmItems }
  | .multiTxConfirm => { items := multiConfirmItems m }
  | .cnf k => if answers m.id h.wsmCmd then { items := cnfItems h m k, refuses := k ≠ .stopScan } else {}
  | .debugPrint => { items := [get 2, get (min (m.num 4 2) 390)] }
  | .startup => { items := startupItems m }
  | .receive =>
    if h.cbcRx then {
      items := [get 4, get 2, get 1, get 1, get 4, get 4]
      reach := Rx.receiveReach b m m.wsmRx h }
    else {}
  | .event =>
    match h.vifpriv (some m.linkId) with
    | none => {}
    | some priv => if priv.unspecified then {} else { items := [get 4, get 4] }
  | .scanComplete =>
    if h.cbcScanComplete then { items := [act, act, get 4, get 1, get 1] ++ if h.scanCca then [get 14] else [] }
    else { items := [act, act] }
  | .suspendResume => if h.cbcSuspendResume then { items := [get 4] } else {}
  | .debug => { items := [get 4] }
  | .giveBuffer | .firmwareCheck | .setPm | .otherInd | .bad => {}

/-- Its handler asks for a byte past `wsm->len`. -/
def TooShort (m : RxMsg) (r : Handled) : Prop := r.cut = true ∨ ∃ x ∈ r.reads, ¬ x.span.Within (max 4 m.len)

instance (m : RxMsg) (r : Handled) : Decidable (TooShort m r) := inferInstanceAs (Decidable (_ ∨ _))

/-- What is read of a message was received, and one that is too short is rejected with nothing done. -/
structure ParsedWithin (m : RxMsg) (r : Handled) : Prop where
  inside : ∀ x ∈ r.reads, x.span.Within (m.received x.buf)
  whole : TooShort m r → r.Rejected ∧ r.acts = []

instance (m : RxMsg) (r : Handled) : Decidable (ParsedWithin m r) :=
  decidable_of_iff ((∀ x ∈ r.reads, x.span.Within (m.received x.buf)) ∧ (TooShort m r → r.Rejected ∧ r.acts = []))
    ⟨fun h => ⟨h.1, h.2⟩, fun h => ⟨h.inside, h.whole⟩⟩

structure Complete (m : RxMsg) (F : RxFormat) : Prop where
  header : 2 ≤ m.received .wsm
  received : ∀ s ∈ taken F.items 4 m.len, s.Within (m.received .wsm)
  whole : Item.Fits F.items 4 m.len → ∀ buf, F.reach buf ≤ min (m.received buf) (max 4 m.len)
  short : ¬ Item.Fits F.items 4 m.len → F.refuses = true ∧ Item.Quiet F.items 4 m.len

/-- A message that a parser was given, with the format of what it ends with. -/
structure HandledBy (m : RxMsg) (p : Parse RxAct Done) (F : RxFormat) (r : Handled) : Prop where
  reads : r.reads = (Handled.of m p).reads
  acts : r.acts = (Handled.of m p).acts
  cut : r.cut = (Handled.of m p).cut
  items : p.script m.wsmBuf = F.items
  reach : ∀ buf, farthest buf (p.result m.wsmBuf).reads = F.reach buf
  rejected : r.cut = true → (r.Rejected ↔ F.refuses = true)
  accepted : (p.result m.wsmBuf).reads ≠ [] → r.cut = false → ¬ r.Rejected

variable {m : RxMsg} {p : Parse RxAct Done} {F : RxFormat}

theorem Handled.of_cut (hf : ¬ Item.Fits (p.script m.wsmBuf) 4 m.len) : Handled.of m p = {
      ret := eInval, cut := true, acts := (p.run m.wsmBuf).acts
      reads := readLen :: (taken (p.script m.wsmBuf) 4 m.len).map fun s => ⟨.wsm, s⟩ } := by
  have hval := Parse.run_cut (p := p) (c := m.wsmBuf) hf
  have hreads := Parse.run_reads p m.wsmBuf
  simp only [Handled.of, hval, hreads]
  rfl

theorem Handled.of_fits (hf : Item.Fits (p.script m.wsmBuf) 4 m.len) : Handled.of m p = {
      ret := (p.result m.wsmBuf).ret, acts := (p.run m.wsmBuf).acts ++ (p.result m.wsmBuf).acts
      reads := (readLen :: (taken (p.script m.wsmBuf) 4 m.len).map fun s => ⟨.wsm, s⟩) ++
        (p.result m.wsmBuf).reads } := by
  have hval := Parse.run_val (p := p) (c := m.wsmBuf) hf
  have hreads := Parse.run_reads p m.wsmBuf
  simp only [Handled.of, hval, hreads]
  rfl

theorem fields_inside {l : List Span} (n : RxBuf → Nat) :
    (∀ x ∈ readLen :: l.map fun s => (⟨.wsm, s⟩ : RxRead), x.span.Within (n x.buf)) ↔
      2 ≤ n .wsm ∧ ∀ s ∈ l, s.Within (n .wsm) := by
  rw [List.forall_mem_cons, List.forall_mem_map, Span.within_iff]
  simp [readLen]

theorem parsedWithin_iff_of_handledBy {r : Handled} (hr : HandledBy m p F r) : ParsedWithin m r ↔ Complete m F := by
  have hitems := hr.items
  have hacts := hr.acts
  have hreads := hr.reads
  have hcut := hr.cut
  by_cases hf : Item.Fits F.items 4 m.len
  · -- nothing is missing, and a look past the length is not answered with an error
    rw [Handled.of_fits (hitems ▸ hf)] at hacts hreads hcut
    rw [hitems] at hreads
    have hlooks : ∀ n : RxBuf → Nat,
        (∀ x ∈ (p.result m.wsmBuf).reads, x.span.Within (n x.buf)) ↔ ∀ buf, F.reach buf ≤ n buf := by
      intro n
      rw [within_iff_farthest]
      simp only [hr.reach]
    have hfields : ∀ x ∈ readLen :: (taken F.items 4 m.len).map fun s => (⟨.wsm, s⟩ : RxRead),
        x.span.Within (max 4 m.len) := by
      refine (fields_inside fun _ => max 4 m.len).mpr ⟨by omega, fun s hs => ?_⟩
      have := taken_within s hs
      rw [Span.within_iff]
      omega
    have hshort : TooShort m r ↔ ¬ ∀ buf, F.reach buf ≤ max 4 m.len := by
      rw [← hlooks, TooShort, hcut, hreads]
      constructor
      · rintro (h | ⟨x, hx, hn⟩) hall
        · exact Bool.false_ne_true h
        · rcases List.mem_append.mp hx with hx | hx
          · exact hn (hfields x hx)
          · exact hn (hall x hx)
      · intro h
        obtain ⟨x, hx⟩ := not_forall.mp h
        obtain ⟨hx, hn⟩ := Classical.not_imp.mp hx
        exact Or.inr ⟨x, List.mem_append_right _ hx, hn⟩
    constructor
    · intro h
      have hin := h.inside
      rw [hreads, List.forall_mem_append] at hin
      obtain ⟨hheader, hreceived⟩ := (fields_inside m.received).mp hin.1
      refine ⟨hheader, hreceived, fun _ buf => ?_, fun hn => absurd hf hn⟩
      have hrec := (hlooks m.received).mp hin.2 buf
      have hlen : F.reach buf ≤ max 4 m.len := by
        by_contra hlt
        have hne : (p.result m.wsmBuf).reads ≠ [] := by
          intro hnil
          have hfar := hr.reach buf
          rw [hnil, farthest_nil] at hfar
          omega
        exact hr.accepted hne hcut (h.whole (hshort.mpr fun hall => hlt (hall buf))).1
      omega
    · intro h
      refine ⟨?_, fun hs => absurd (fun buf => (h.whole hf buf).trans (Nat.min_le_right _ _)) (hshort.mp hs)⟩
      rw [hreads, List.forall_mem_append]
      exact ⟨(fields_inside m.received).mpr ⟨h.header, h.received⟩,
        (hlooks m.received).mpr fun buf => (h.whole hf buf).trans (Nat.min_le_left _ _)⟩
  · have hval := Parse.run_cut (p := p) (c := m.wsmBuf) (hitems ▸ hf)
    rw [Handled.of_cut (hitems ▸ hf)] at hacts hreads hcut
    have hquiet : r.acts = [] ↔ Item.Quiet F.items 4 m.len := by
      rw [hacts, ← hitems]
      exact Parse.run_acts_eq_nil p m.wsmBuf hval
    rw [hitems] at hreads
    constructor
    · intro h
      have hin := h.inside
      rw [hreads] at hin
      obtain ⟨hheader, hreceived⟩ := (fields_inside m.received).mp hin
      obtain ⟨hrej, hnone⟩ := h.whole (Or.inl hcut)
      exact ⟨hheader, hreceived, fun hf' => absurd hf' hf, fun _ => ⟨(hr.rejected hcut).mp hrej, hquiet.mp hnone⟩⟩
    · intro h
      obtain ⟨href, hq⟩ := h.short hf
      refine ⟨?_, fun _ => ⟨(hr.rejected hcut).mpr href, hquiet.mpr hq⟩⟩
      rw [hreads]
      exact (fields_inside m.received).mpr ⟨h.header, h.received⟩

theorem handledBy_of (hitems : p.script m.wsmBuf = F.items)
    (hreach : ∀ buf, farthest buf (p.result m.wsmBuf).reads = F.reach buf)
    (hret : (p.result m.wsmBuf).reads ≠ [] → (p.result m.wsmBuf).ret = 0) (hrefuses : F.refuses = true) :
    HandledBy m p F (Handled.of m p) := by
  refine ⟨rfl, rfl, rfl, hitems, hreach, fun hcut => ?_, fun hne hcut => ?_⟩
  · by_cases hf : Item.Fits (p.script m.wsmBuf) 4 m.len
    · rw [Handled.of_fits hf] at hcut
      exact absurd hcut Bool.false_ne_true
    · rw [Handled.of_cut hf, hrefuses, Handled.Rejected]
      simp [eInval]
  · by_cases hf : Item.Fits (p.script m.wsmBuf) 4 m.len
    · rw [Handled.of_fits hf, Handled.Rejected, hret hne]
      simp
    · rw [Handled.of_cut hf] at hcut
      exact absurd hcut.symm Bool.false_ne_true

theorem handledBy_toCmd {k : CnfKind} (hitems : p.script m.wsmBuf = F.items) (hreads : (p.result m.wsmBuf).reads = [])
    (hreach : F.reach = fun _ => 0) (hrefuses : F.refuses = decide (k ≠ .stopScan)) :
    HandledBy m p F ((Handled.of m p).toCmd k) := by
  refine ⟨rfl, rfl, rfl, hitems, fun buf => by rw [hreads, hreach]; rfl, fun hcut => ?_, fun hne => absurd hreads hne⟩
  by_cases hf : Item.Fits (p.script m.wsmBuf) 4 m.len
  · rw [Handled.of_fits hf] at hcut
    exact absurd hcut Bool.false_ne_true
  · rw [Handled.of_cut hf, hrefuses, Handled.Rejected, Handled.toCmd]
    by_cases hk : k = .stopScan
    · simp [hk]
    · simp [hk, eInval]

namespace Rx

open Parse

variable (c : Cursor)

theorem script_wsmTxConfirm (f : Unit → Parse RxAct Done) :
    (Rx.wsmTxConfirm >>= f).script c = confirmItems ++ (f ()).script (c.advance 20) := rfl

theorem result_wsmTxConfirm (f : Unit → Parse RxAct Done) :
    (Rx.wsmTxConfirm >>= f).result c = (f ()).result (c.advance 20) := rfl

theorem script_confirmLoop (n : Nat) : (confirmLoop n).script c = (List.replicate n confirmItems).flatten := by
  induction n generalizing c with
  | zero => rfl
  | succ n ih =>
    show (Rx.wsmTxConfirm >>= fun _ => confirmLoop n).script c = _
    rw [script_wsmTxConfirm, ih, List.replicate_succ, List.flatten_cons]

theorem result_confirmLoop (n : Nat) : ((confirmLoop n).result c).reads = [] := by
  induction n generalizing c with
  | zero => rfl
  | succ n ih =>
    show ((Rx.wsmTxConfirm >>= fun _ => confirmLoop n).result c).reads = []
    rw [result_wsmTxConfirm]
    exact ih _

theorem script_wsmMultiTxConfirm (m : RxMsg) : Rx.wsmMultiTxConfirm.script m.wsmBuf = multiConfirmItems m := by
  unfold Rx.wsmMultiTxConfirm multiConfirmItems
  rw [script_number, script_ite, script_ite, script_does]
  simp only [script_confirmLoop]
  show get 4 :: (if m.num 4 4 = 0 ∨ 2 ^ 31 ≤ m.num 4 4 then [] else if 1 < m.num 4 4 then _ else _) = _
  congr 2
  split <;> rfl

theorem result_wsmMultiTxConfirm : (Rx.wsmMultiTxConfirm.result c).reads = [] := by
  unfold Rx.wsmMultiTxConfirm
  rw [result_number, result_ite, result_ite, result_does]
  split
  · rfl
  · split
    · exact result_confirmLoop _ _
    · exact result_confirmLoop _ _

theorem script_wsmRequestBufferConfirm (m : RxMsg) (h : RxHost) (i off : Nat) (f : Unit → Parse RxAct Done) :
    (wsmRequestBufferConfirm h i >>= f).script ⟨m.mem .wsm, off, m.len⟩ = [get 4, get 1] ++
      (if (h.vifList i).any fun v => v.staAsleepMask != m.num off 4 then [Item.act, Item.act] else [Item.act]) ++
        (f ()).script ⟨m.mem .wsm, off + 5, m.len⟩ := by
  show get 4 :: get 1 :: script (Parse.bind (if (h.vifList i).any fun v => v.staAsleepMask != m.num off 4 then _
    else _) f) _ = _
  split <;> rfl

theorem result_wsmRequestBufferConfirm (h : RxHost) (i : Nat) (f : Unit → Parse RxAct Done) :
    (wsmRequestBufferConfirm h i >>= f).result c = (f ()).result (c.advance 5) := by
  show result (Parse.bind (if (h.vifList i).any fun v => v.staAsleepMask != ofBytes (c.bytes 4) then _ else _) f)
    _ = _
  split <;> rfl

theorem script_requestBufferLoop (m : RxMsg) (h : RxHost) (l : List Nat) (off : Nat) :
    (requestBufferLoop h l).script ⟨m.mem .wsm, off, m.len⟩ = cnfItems.requestBufferItems m h l off := by
  induction l generalizing off with
  | nil => rfl
  | cons i l ih =>
    show (wsmRequestBufferConfirm h i >>= fun _ => requestBufferLoop h l).script _ = _
    rw [script_wsmRequestBufferConfirm, ih]
    rfl

theorem result_requestBufferLoop (h : RxHost) (l : List Nat) : ((requestBufferLoop h l).result c).reads = [] := by
  induction l generalizing c with
  | nil => rfl
  | cons i l ih =>
    show ((wsmRequestBufferConfirm h i >>= fun _ => requestBufferLoop h l).result c).reads = []
    rw [result_wsmRequestBufferConfirm]
    exact ih _

theorem script_withArg (h : RxHost) (f : CmdArg → Parse RxAct Done) :
    (withArg h f).script c = h.wsmArg.elim [] fun arg => (f arg).script c := by
  unfold withArg
  cases h.wsmArg <;> rfl

theorem result_withArg (h : RxHost) (f : CmdArg → Parse RxAct Done) (hf : ∀ arg, ((f arg).result c).reads = []) :
    ((withArg h f).result c).reads = [] := by
  unfold withArg
  cases h.wsmArg with
  | none => rfl
  | some arg => exact hf arg

theorem script_status (m : RxMsg) (p : Parse RxAct Done) :
    (number 4 >>= fun status => if status ≠ 0 then return { ret := eInval } else p).script m.wsmBuf =
      onSuccess m (p.script (m.wsmBuf.advance 4)) := by
  rw [script_number, script_ite, ite_not]
  rfl

theorem result_status (p : Parse RxAct Done) (hp : (p.result (c.advance 4)).reads = []) :
    ((number 4 >>= fun status => if status ≠ 0 then return { ret := eInval } else p).result c).reads = [] := by
  rw [result_number, result_ite]
  split
  · rfl
  · exact hp

theorem script_wsmGenericReqConfirm (m : RxMsg) (arg : CmdArg) :
    (wsmGenericReqConfirm arg).script m.wsmBuf =
      [get 4, get 4] ++ if m.num 4 4 = arg.reqId ∧ m.num 8 4 = 0 then [get arg.bufSize] else [] := by
  unfold wsmGenericReqConfirm
  rw [script_number, script_number, script_ite, script_ite]
  show get 4 :: get 4 :: (if m.num 4 4 ≠ arg.reqId then [] else if m.num 8 4 ≠ 0 then [] else [get arg.bufSize]) = _
  by_cases hreq : m.num 4 4 = arg.reqId
  · by_cases hstatus : m.num 8 4 = 0
    · simp [hreq, hstatus]
    · simp [hreq, hstatus]
  · simp [hreq]

theorem script_wsmReadMibConfirm (m : RxMsg) (arg : CmdArg) :
    (wsmReadMibConfirm arg).script m.wsmBuf = onSuccess m
      (get 2 :: if m.num 8 2 = arg.mibId then [get 2, get (min (m.num 10 2) arg.bufSize)] else []) := by
  unfold wsmReadMibConfirm
  rw [script_status, script_number, script_ite, ite_not]
  rfl

theorem script_cnfHandler (h : RxHost) (m : RxMsg) (k : CnfKind) :
    (cnfHandler h k).script m.wsmBuf = cnfItems h m k := by
  cases k with
  | readShmem =>
    rw [cnfHandler, script_withArg]
    exact congrArg _ (funext fun arg => script_status m _)
  | writeShmem => exact script_withArg _ h _
  | genericReq =>
    rw [cnfHandler, script_withArg]
    exact congrArg _ (funext fun arg => script_wsmGenericReqConfirm m arg)
  | configuration =>
    rw [cnfHandler, script_withArg]
    exact congrArg _ (funext fun arg => script_status m _)
  | readMib =>
    rw [cnfHandler, script_withArg]
    exact congrArg _ (funext fun arg => script_wsmReadMibConfirm m arg)
  | writeMib =>
    rw [cnfHandler, script_withArg]
    refine congrArg _ (funext fun arg => ?_)
    exact (script_status m _).trans (by unfold onSuccess; split <;> rfl)
  | join =>
    rw [cnfHandler, script_withArg]
    exact congrArg _ (funext fun arg => script_status m _)
  | requestBuffer =>
    rw [cnfHandler, script_withArg]
    exact congrArg _ (funext fun arg => script_requestBufferLoop m h _ 4)
  | efuse | stopScan | generic | unknown => rfl

theorem result_cnfHandler (h : RxHost) (k : CnfKind) : ((cnfHandler h k).result c).reads = [] := by
  cases k with
  | readShmem | configuration | join => exact result_withArg c h _ fun arg => result_status c _ rfl
  | writeMib => exact result_withArg c h _ fun arg => result_status c _ rfl
  | writeShmem => exact result_withArg c h _ fun arg => rfl
  | genericReq =>
    refine result_withArg c h _ fun arg => ?_
    unfold wsmGenericReqConfirm
    rw [result_number, result_number, result_ite, result_ite]
    split
    · rfl
    · split <;> rfl
  | readMib =>
    refine result_withArg c h _ fun arg => result_status c _ ?_
    rw [result_number, result_ite]
    split <;> rfl
  | requestBuffer => exact result_withArg c h _ fun arg => result_requestBufferLoop c h _
  | efuse | stopScan | generic | unknown => rfl

theorem script_optNumbers (f : Option Nat → Option Nat → Option Nat → Done) :
    (do
      let x ← optNumber 2
      let y ← optNumber 2
      let z ← optNumber 2
      return f x y z : Parse RxAct Done).script c = List.replicate (min 3 ((c.lim - c.pos) / 2)) (get 2) := by
  simp only [script_optNumber, script_pure, Cursor.advance_pos, Cursor.advance_lim]
  by_cases h1 : c.pos + 2 ≤ c.lim
  · by_cases h2 : c.pos + 2 + 2 ≤ c.lim
    · by_cases h3 : c.pos + 2 + 2 + 2 ≤ c.lim
      · rw [if_pos h1, if_pos h2, if_pos h3, show min 3 ((c.lim - c.pos) / 2) = 3 by omega]
        rfl
      · rw [if_pos h1, if_pos h2, if_neg h3, show min 3 ((c.lim - c.pos) / 2) = 2 by omega]
        rfl
    · rw [if_pos h1, if_neg h2, if_neg h2, show min 3 ((c.lim - c.pos) / 2) = 1 by omega]
      rfl
  · rw [if_neg h1, if_neg h1, if_neg h1, show min 3 ((c.lim - c.pos) / 2) = 0 by omega]
    rfl

theorem result_optNumbers (f : Option Nat → Option Nat → Option Nat → Done) (hf : ∀ x y z, (f x y z).reads = []) :
    ((do
      let x ← optNumber 2
      let y ← optNumber 2
      let z ← optNumber 2
      return f x y z : Parse RxAct Done).result c).reads = [] := by
  simp only [result_optNumber, result_pure]
  split_ifs <;> exact hf _ _ _

theorem script_wsmStartupIndication (m : RxMsg) : wsmStartupIndication.script m.wsmBuf = startupItems m :=
  congrArg ([get 2, act, get 2, act, get 2, act, get 2, act, get 2, get 2, act, get 2, act, get 2, act, get 2, act,
    get 2, act, get 128, get 4, get 4, get 4, get 4, get 2] ++ ·) (script_optNumbers _ _)

theorem reads_startup (n status cap type cap2 : Nat) (config exCap : List Nat) :
    (startup n status cap type cap2 config exCap).reads = [] := by
  unfold startup
  split
  · rfl
  · split <;> rfl

theorem result_wsmStartupIndication : (wsmStartupIndication.result c).reads = [] :=
  result_optNumbers _ _ fun _ _ _ => reads_startup _ _ _ _ _ _ _

end Rx

theorem parsedWithin_iff_of_fields {m : RxMsg} {p : Parse RxAct Done} {l : List Item}
    (hitems : p.script m.wsmBuf = l) (hreads : (p.result m.wsmBuf).reads = []) :
    ParsedWithin m (Handled.of m p) ↔ Complete m { items := l } :=
  parsedWithin_iff_of_handledBy
    (handledBy_of hitems (fun buf => by rw [hreads]; rfl) (fun hne => absurd hreads hne) rfl)

theorem parsedWithin_cnf (h : RxHost) (m : RxMsg) (k : CnfKind) :
    ParsedWithin m (if k = .unknown then .of m (cnfHandler h k) else (Handled.of m (cnfHandler h k)).toCmd k) ↔
      Complete m { items := cnfItems h m k, refuses := k ≠ .stopScan } := by
  by_cases hk : k = .unknown
  · subst hk
    rw [if_pos rfl]
    exact parsedWithin_iff_of_fields rfl rfl
  · rw [if_neg hk]
    exact parsedWithin_iff_of_handledBy
      (handledBy_toCmd (Rx.script_cnfHandler h m k) (Rx.result_cnfHandler _ h k) rfl rfl)

theorem parsedWithin_receive (b : RxBuild) (h : RxHost) (m : RxMsg) :
    ParsedWithin m (.of m (Rx.wsmReceiveIndication b m h)) ↔ Complete m (if h.cbcRx then {
      items := [get 4, get 2, get 1, get 1, get 4, get 4]
      reach := Rx.receiveReach b m m.wsmRx h }
    else {}) := by
  unfold Rx.wsmReceiveIndication
  cases h.cbcRx with
  | false => exact parsedWithin_iff_of_fields rfl rfl
  | true =>
    exact parsedWithin_iff_of_handledBy
      (handledBy_of rfl (fun buf => Rx.receiveFrame_looks b m m.wsmRx h buf) (fun _ => rfl) rfl)

/-- **A message is parsed within what was received**, or rejected whole, exactly when it is complete. -/
theorem parsedWithin_iff (b : RxBuild) (h : RxHost) (m : RxMsg) :
    ParsedWithin m (wsmHandleRx b h m) ↔ Complete m (rxFormat b h m) := by
  unfold wsmHandleRx rxFormat
  cases rxKind b.sdio (stripLinkId m.id) with
  | cnf k =>
    show ParsedWithin m (if !answers m.id h.wsmCmd then _ else _) ↔
      Complete m (if answers m.id h.wsmCmd then _ else _)
    cases answers m.id h.wsmCmd with
    | true => exact parsedWithin_cnf h m k
    | false => exact parsedWithin_iff_of_fields (p := return { ret := eInval }) rfl rfl
  | receive => exact parsedWithin_receive b h m
  | multiTxConfirm =>
    exact parsedWithin_iff_of_fields (Rx.script_wsmMultiTxConfirm m) (Rx.result_wsmMultiTxConfirm _)
  | startup =>
    exact parsedWithin_iff_of_fields (Rx.script_wsmStartupIndication m) (Rx.result_wsmStartupIndication _)
  | event =>
    show ParsedWithin m (.of m (Rx.wsmEventIndication h m.linkId)) ↔ _
    unfold Rx.wsmEventIndication
    cases h.vifpriv (some m.linkId) with
    | none => exact parsedWithin_iff_of_fields rfl rfl
    | some priv =>
      show ParsedWithin m (.of m (if priv.unspecified then _ else _)) ↔ Complete m (if priv.unspecified then _ else _)
      cases priv.unspecified <;> exact parsedWithin_iff_of_fields rfl rfl
  | scanComplete =>
    show ParsedWithin m (.of m (Rx.wsmScanCompleteIndication h)) ↔ _
    unfold Rx.wsmScanCompleteIndication
    cases h.cbcScanComplete with
    | true => cases h.scanCca <;> exact parsedWithin_iff_of_fields rfl rfl
    | false => exact parsedWithin_iff_of_fields rfl rfl
  | suspendResume =>
    show ParsedWithin m (.of m (Rx.wsmSuspendResumeIndication h m.linkId)) ↔ _
    unfold Rx.wsmSuspendResumeIndication
    cases h.cbcSuspendResume <;> exact parsedWithin_iff_of_fields rfl rfl
  | txConfirm | debugPrint | debug | giveBuffer | firmwareCheck | setPm | otherInd | bad =>
    exact parsedWithin_iff_of_fields rfl rfl

def sampleRxBuild : RxBuild := ⟨false, fun _ => 24, 25⟩

/-- An interface joined as a station; a stopped scan waits for its confirmation. -/
def sampleRxEnv : RxEnv where
  host _ := {
    wsmCmd := 0x0008#16
    wsmArg := none
    cbcRx := true
    cbcScanComplete := true
    cbcSuspendResume := true
    etf := false
    chipVersion := 10
    hwBufsUsed := 1
    pmRunning := false
    scanCca := false
    scanIf := none
    monitorIf := none
    staListenIf := none
    vifList := fun i => if i = 0 then some {
        unspecified := false
        apType := false
        joinStatus := .sta
        addr := [0, 0x11, 0x22, 0x33, 0x44, 0x55]
        staAsleepMask := 0
        sta := fun _ => none
        linkIdOf := fun _ => 0
        queuedFor := fun _ => false }
      else none }
  passes _ := true
  behind _ := 0
  urbError := false

def zerosBehind (l : List UInt8) : BusFrame := ⟨l, fun _ => 0⟩

end AtbmWifi
