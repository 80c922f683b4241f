import AtbmWifi.Scan.StaScan

/-!
# What the private station scan exports

* `StaScanSound`: when the call returns 0, the user has the records of the results that
  carry a special IE and are on the channel asked for, and the table is empty; no copy
  leaves a field, the message or the array, and every buffer is freed once.
-/

namespace AtbmWifi

open Memory Wire

/-- Byte `o` of the record of a result in an array that was zero. -/
def recordByte (s : StoredSta) (o : Nat) : UInt8 :=
  if o < recvSsidSize then s.ssid.getD o 0
  else if o = recvChannel then s.channel
  else if o = recvRssi then s.signal
  else if recvBssid ≤ o ∧ o < recvUserData then s.bssid.toList.getD (o - recvBssid) 0
  else if recvUserData ≤ o then s.ie.getD (o - recvUserData) 0
  else 0

/-- Byte `a` of the array with the records of `l` first and zero after them -/
def exported (l : List StoredSta) (a : Nat) : UInt8 :=
  match l[a / recvInfoSize]? with
  | some s => recordByte s (a % recvInfoSize)
  | none => 0

/-- The copies of a record stay in their fields. -/
def StoredSta.Fits (s : StoredSta) : Prop := s.ssid.length ≤ recvSsidSize

theorem write_outside {m : Nat → UInt8} {a x : Nat} {bs : List UInt8} (h : ¬(a ≤ x ∧ x < a + bs.length)) :
    write m a bs x = m x := if_neg h

theorem write_inside {m : Nat → UInt8} {a x : Nat} {bs : List UInt8} (h : a ≤ x ∧ x < a + bs.length) :
    write m a bs x = bs.getD (x - a) 0 := if_pos h

theorem write_nonempty (m : Nat → UInt8) (a : Nat) (bs : List UInt8) :
    (if bs.length ≠ 0 then write m a bs else m) = write m a bs := by
  by_cases h : bs.length = 0
  · rw [if_neg (not_not_intro h)]
    funext x
    exact (write_outside (by omega)).symm
  · rw [if_pos h]

theorem fillRecord_eq (mem : Nat → UInt8) (pos : Nat) (s : StoredSta) :
    fillRecord mem pos s =
      write (write (write (write (write mem (pos + recvChannel) [s.channel]) (pos + recvRssi) [s.signal, 0, 0, 0])
        (pos + recvBssid) s.bssid.toList) pos s.ssid) (pos + recvUserData) s.ie := by
  unfold fillRecord
  dsimp only
  rw [write_nonempty, write_nonempty]

theorem fillRecord_apart {mem : Nat → UInt8} {pos a : Nat} {s : StoredSta}
    (h : a < pos ∨ pos + recvInfoSize ≤ a) : fillRecord mem pos s a = mem a := by
  have hie := s.ie_lt
  have hssid := s.ssid_lt
  have hb : s.bssid.toList.length = 6 := Vector.length_toList
  unfold recvInfoSize at h
  rw [fillRecord_eq]
  unfold recvChannel recvRssi recvBssid recvUserData
  rw [write_apart (by omega), write_apart (by omega), write_apart (by omega),
    write_apart (by simp only [List.length_cons, List.length_nil]; omega),
    write_apart (by simp only [List.length_cons, List.length_nil]; omega)]

theorem fillRecord_at {mem : Nat → UInt8} {pos o : Nat} {s : StoredSta} (hs : s.Fits) (ho : o < recvInfoSize)
    (hzero : mem (pos + o) = 0) : fillRecord mem pos s (pos + o) = recordByte s o := by
  have hie := s.ie_lt
  have hb : s.bssid.toList.length = 6 := Vector.length_toList
  unfold StoredSta.Fits recvSsidSize at hs
  unfold recvInfoSize at ho
  rw [fillRecord_eq]
  unfold recordByte recvChannel recvRssi recvBssid recvUserData recvSsidSize
  have hpast : ∀ (l : List UInt8) (i : Nat), l.length ≤ i → l.getD i 0 = 0 :=
    fun l i h => List.getD_eq_default l 0 h
  -- the field of the byte decides which of the five writes it comes from
  by_cases h1 : o < 32
  · rw [if_pos h1, write_outside (by omega)]
    by_cases hin : o < s.ssid.length
    · rw [write_inside (by omega), Nat.add_sub_cancel_left]
    · rw [write_outside (by omega), write_outside (by omega),
        write_outside (by simp only [List.length_cons, List.length_nil]; omega),
        write_outside (by simp only [List.length_cons, List.length_nil]; omega), hzero, hpast _ _ (by omega)]
  · rw [if_neg h1]
    by_cases h5 : 51 ≤ o
    · rw [if_neg (by omega), if_neg (by omega), if_neg (by omega), if_pos h5]
      by_cases hin : o - 51 < s.ie.length
      · rw [write_inside (by omega)]
        congr 1
        omega
      · rw [write_outside (by omega), write_outside (by omega), write_outside (by omega),
          write_outside (by simp only [List.length_cons, List.length_nil]; omega),
          write_outside (by simp only [List.length_cons, List.length_nil]; omega), hzero, hpast _ _ (by omega)]
    · rw [write_outside (by omega), write_outside (by omega)]
      by_cases h4 : 45 ≤ o
      · rw [if_neg (by omega), if_neg (by omega), if_pos ⟨h4, by omega⟩, write_inside (by omega)]
        congr 1
        omega
      · rw [write_outside (by omega)]
        by_cases h3 : 36 ≤ o ∧ o < 40
        · rw [write_inside (by simp only [List.length_cons, List.length_nil]; omega), if_neg (by omega)]
          rcases (by omega : o = 36 ∨ o = 37 ∨ o = 38 ∨ o = 39) with rfl | rfl | rfl | rfl
          · rw [if_pos rfl, Nat.sub_self]
            rfl
          · rw [if_neg (by omega), if_neg (by omega), if_neg (by omega), show pos + 37 - (pos + 36) = 1 by omega]
            rfl
          · rw [if_neg (by omega), if_neg (by omega), if_neg (by omega), show pos + 38 - (pos + 36) = 2 by omega]
            rfl
          · rw [if_neg (by omega), if_neg (by omega), if_neg (by omega), show pos + 39 - (pos + 36) = 3 by omega]
            rfl
        · rw [write_outside (by simp only [List.length_cons, List.length_nil]; omega)]
          by_cases h2 : o = 32
          · rw [if_pos h2, write_inside (by simp only [List.length_cons, List.length_nil]; omega), h2, Nat.sub_self]
            rfl
          · rw [if_neg h2, if_neg (by omega), if_neg (by omega), if_neg (by omega),
              write_outside (by simp only [List.length_cons, List.length_nil]; omega), hzero]

theorem exported_fill {mem : Nat → UInt8} {l : List StoredSta} (hmem : ∀ a, mem a = exported l a) {s : StoredSta}
    (hs : s.Fits) (a : Nat) : fillRecord mem (l.length * recvInfoSize) s a = exported (l ++ [s]) a := by
  have hsize : 0 < recvInfoSize := by decide
  have hdiv := Nat.div_add_mod a recvInfoSize
  have hmod := Nat.mod_lt a hsize
  rw [Nat.mul_comm recvInfoSize] at hdiv
  by_cases h : a / recvInfoSize = l.length
  · have ha : a = l.length * recvInfoSize + a % recvInfoSize := by
      rw [← h]
      omega
    have hzero : mem a = 0 := by
      rw [hmem]
      unfold exported
      rw [List.getElem?_eq_none (by omega)]
    have hfill := @fillRecord_at mem (l.length * recvInfoSize) (a % recvInfoSize) s hs hmod (by rw [← ha]; exact hzero)
    rw [← ha] at hfill
    rw [hfill]
    unfold exported
    rw [h, List.getElem?_append_right (Nat.le_refl _), Nat.sub_self]
    rfl
  · have hapart : a < l.length * recvInfoSize ∨ l.length * recvInfoSize + recvInfoSize ≤ a := by
      rcases Nat.lt_or_gt_of_ne h with hlt | hgt
      · left
        have := Nat.mul_le_mul_right recvInfoSize (show a / recvInfoSize + 1 ≤ l.length by omega)
        rw [Nat.add_mul, Nat.one_mul] at this
        omega
      · right
        have := Nat.mul_le_mul_right recvInfoSize (show l.length + 1 ≤ a / recvInfoSize by omega)
        rw [Nat.add_mul, Nat.one_mul] at this
        omega
    rw [fillRecord_apart hapart, hmem]
    unfold exported
    by_cases hlt : a / recvInfoSize < l.length
    · rw [List.getElem?_append_left hlt]
    · rw [List.getElem?_eq_none (by omega), List.getElem?_eq_none (by rw [List.length_append, List.length_singleton]; omega)]

/-- The copy stays in its field, and the field in the array. -/
def RecvCopy.Within (c : RecvCopy) : Prop := c.record < macFilterNum ∧ c.len ≤ c.fieldSize

/-- The request after the results `l` were handled. -/
structure StasHandled (req : StaResultsReq) (l : List StoredSta) : Prop where
  nStas : req.nStas = l.length
  le : l.length ≤ macFilterNum
  copies : (∀ c ∈ req.copies, c.Within) ↔ ∀ s ∈ l, s.Fits
  priv : (∀ s ∈ l, s.Fits) → ∀ a, req.priv a = exported l a

theorem handled_start : StasHandled ⟨true, 0, fun _ => 0, []⟩ [] where
  nStas := rfl
  le := by decide
  copies := iff_of_true (fun _ h => (List.not_mem_nil h).elim) (fun _ h => (List.not_mem_nil h).elim)
  priv _ _ := rfl

theorem handled_next {req : StaResultsReq} {l : List StoredSta} (h : StasHandled req l) {s : StoredSta}
    (hroom : ¬macFilterNum ≤ req.nStas) (hie : s.ie.length ≠ 0) :
    ∃ req', atbmDevHandleScanSta req s = (true, req') ∧ StasHandled req' (l ++ [s]) := by
  have hlt : l.length < macFilterNum := by
    have := h.nStas
    omega
  unfold atbmDevHandleScanSta
  rw [if_neg hroom, if_neg hie]
  refine ⟨_, rfl, ?_, ?_, ?_, ?_⟩
  · show req.nStas + 1 = _
    rw [h.nStas, List.length_append, List.length_singleton]
  · rw [List.length_append, List.length_singleton]
    omega
  · rw [List.forall_mem_append, List.forall_mem_append, h.copies]
    have hrec : req.nStas < macFilterNum := by omega
    have hie' : s.ie.length ≤ recvUserDataSize := by
      have := s.ie_lt
      unfold recvUserDataSize
      omega
    constructor
    · rintro ⟨hl, hc⟩
      refine ⟨hl, ?_⟩
      intro t ht
      rw [List.mem_singleton.mp ht]
      exact (hc ⟨req.nStas, recvSsidSize, s.ssid.length⟩ (by simp)).2
    · rintro ⟨hl, hs⟩
      refine ⟨hl, ?_⟩
      intro c hc
      simp only [List.mem_cons, List.not_mem_nil, or_false] at hc
      rcases hc with rfl | rfl | rfl
      · exact ⟨hrec, Nat.le_refl 6⟩
      · exact ⟨hrec, hs s (List.mem_singleton.mpr rfl)⟩
      · exact ⟨hrec, hie'⟩
  · intro hfits a
    rw [List.forall_mem_append] at hfits
    show fillRecord req.priv (req.nStas * recvInfoSize) s a = _
    rw [h.nStas]
    exact exported_fill (h.priv hfits.1) (hfits.2 s (List.mem_singleton.mpr rfl)) a

def hasSpecialIe (s : StoredSta) : Bool := decide (s.ie.length ≠ 0)

theorem handled_walk (stas : List StoredSta) {p : Bool × StaResultsReq} {l : List StoredSta} (h : StasHandled p.2 l)
    (hfull : p.1 = false → l.length = macFilterNum) :
    StasHandled (stas.foldl reqResultsNode p).2 (l ++ (stas.filter hasSpecialIe).take (macFilterNum - l.length)) := by
  induction stas generalizing p l with
  | nil =>
    rw [List.filter_nil, List.take_nil, List.append_nil]
    exact h
  | cons s stas ih =>
    rw [List.foldl_cons]
    have hzero : l.length = macFilterNum → ∀ k : List StoredSta,
        l ++ k.take (macFilterNum - l.length) = l := by
      intro hl k
      rw [hl, Nat.sub_self, List.take_zero, List.append_nil]
    cases hp : p.1 with
    | false =>
      have hstep : reqResultsNode p s = p := by
        unfold reqResultsNode
        rw [hp, if_neg Bool.false_ne_true]
      have hl := hfull hp
      have := ih h hfull
      rw [hzero hl] at this ⊢
      rw [hstep]
      exact this
    | true =>
      have hstep : reqResultsNode p s = atbmDevHandleScanSta p.2 s := by
        unfold reqResultsNode
        rw [hp, if_pos rfl]
      rw [hstep]
      by_cases hroom : macFilterNum ≤ p.2.nStas
      · have hl : l.length = macFilterNum := by
          have h1 := h.nStas
          have h2 := h.le
          omega
        have hret : atbmDevHandleScanSta p.2 s = (false, p.2) := if_pos hroom
        have := @ih (false, p.2) l h fun _ => hl
        rw [hzero hl] at this ⊢
        rw [hret]
        exact this
      · by_cases hie : s.ie.length = 0
        · have hret : atbmDevHandleScanSta p.2 s = (true, p.2) := by
            unfold atbmDevHandleScanSta
            rw [if_neg hroom, if_pos hie]
          rw [hret, List.filter_cons_of_neg (by simp [hasSpecialIe, hie])]
          exact @ih (true, p.2) l h nofun
        · obtain ⟨req', hret, hnext⟩ := handled_next h hroom hie
          have hroom' : macFilterNum - l.length = macFilterNum - (l ++ [s]).length + 1 := by
            have h1 := h.nStas
            rw [List.length_append, List.length_singleton]
            omega
          rw [hret, List.filter_cons_of_pos (by simp [hasSpecialIe, hie]), hroom', List.take_succ_cons,
            show l ++ s :: _ = l ++ [s] ++ _ from List.append_cons l s _]
          exact @ih (true, req') (l ++ [s]) hnext nofun

def firstStas (table : List (List StoredSta)) : List StoredSta :=
  (table.flatten.filter hasSpecialIe).take macFilterNum

theorem reqResults_spec (table : List (List StoredSta)) :
    StasHandled (scanInternalReqResults table ⟨true, 0, fun _ => 0, []⟩).1 (firstStas table) ∧
      ∀ hlist ∈ (scanInternalReqResults table ⟨true, 0, fun _ => 0, []⟩).2, hlist = [] := by
  constructor
  · have := handled_walk table.flatten handled_start (p := (true, ⟨true, 0, fun _ => 0, []⟩)) nofun
    rw [List.foldl_flatten, List.nil_append] at this
    exact this
  · intro hlist h
    obtain ⟨_, -, rfl⟩ := List.mem_map.mp h
    rfl

/-- The results the user asked for: those with a special IE, on the channel if one was given. -/
def wantedStas (channel : Nat) (table : List (List StoredSta)) : List StoredSta :=
  (table.flatten.filter fun s => hasSpecialIe s && (channel == 0 || s.channel.toNat == channel)).take macFilterNum

def StaScanEvent.buf : StaScanEvent → StaScanBuf
  | .alloc b => b
  | .free b => b
  | .handed b => b

/-- A buffer that was allocated is freed once after that, or is the request that the scan keeps. -/
def FreedOnce (events : List StaScanEvent) : Prop :=
  ∀ b, let l := events.filter fun e => e.buf = b
    l = [] ∨ l = [.alloc b, .free b] ∨ (b = .scanReq ∧ l = [.alloc b, .handed b])

instance (events : List StaScanEvent) (b : StaScanBuf) :
    Decidable (let l := events.filter fun e => e.buf = b
      l = [] ∨ l = [.alloc b, .free b] ∨ (b = .scanReq ∧ l = [.alloc b, .handed b])) :=
  inferInstanceAs (Decidable (_ ∨ _ ∨ _))

structure StaScanSound (env : StaScanEnv) (msg : Nat → UInt8) (r : StaScanEnd) : Prop where
  records : r.ret = 0 → ∀ a < macFilterNum * recvInfoSize,
    r.user a = exported (wantedStas (staScanChannel msg) env.found) a
  copies : ∀ c ∈ r.copies, c.Within
  message : ∀ s ∈ r.msgReads, s.Within 256
  flushed : r.ret = 0 → ∀ hlist ∈ r.table, hlist = []
  freed : FreedOnce r.events

structure StaScanReaches (env : StaScanEnv) (msg : Nat → UInt8) : Prop where
  running : env.running = true
  station : env.station = true
  recvAlloc : env.recvAlloc = true
  macsAlloc : staScanMacs msg = true → env.macsAlloc = true
  idle : env.busy = false
  reqAlloc : env.reqAlloc = true
  hasChannel : staScanChannel msg % 256 ≠ 0 → env.hasChannel (scanChannelFreq (staScanChannel msg % 256)) = true
  triger : env.triger = true
  finished : env.wait = .finished

def staScanChannels (msg : Nat → UInt8) : List Nat :=
  if staScanChannel msg % 256 ≠ 0 then
    [staScanChannel msg % 256, staScanChannel msg % 256, staScanChannel msg % 256]
  else []

theorem staScanChannels_known {env : StaScanEnv} {msg : Nat → UInt8} :
    (staScanChannels msg).any (fun c => !env.hasChannel (scanChannelFreq c)) = false ↔
      (staScanChannel msg % 256 ≠ 0 → env.hasChannel (scanChannelFreq (staScanChannel msg % 256)) = true) := by
  unfold staScanChannels
  by_cases h : staScanChannel msg % 256 ≠ 0
  · rw [if_pos h]
    simp [h]
  · rw [if_neg h]
    exact iff_of_true rfl fun hne => absurd hne h

theorem scanTriger_eq_true {env : StaScanEnv} {msg : Nat → UInt8} :
    (atbmInternalCmdScanTriger env (staScanChannels msg)).1 = true ↔
      env.busy = false ∧ env.reqAlloc = true ∧
        (staScanChannel msg % 256 ≠ 0 → env.hasChannel (scanChannelFreq (staScanChannel msg % 256)) = true) ∧
        env.triger = true ∧ env.wait = .finished := by
  rw [← staScanChannels_known]
  unfold atbmInternalCmdScanTriger
  cases env.busy with
  | true => simp
  | false =>
    cases env.reqAlloc with
    | false => simp
    | true =>
      cases (staScanChannels msg).any fun c => !env.hasChannel (scanChannelFreq c) with
      | true => simp
      | false =>
        cases env.triger with
        | false => simp
        | true => cases env.wait <;> simp

theorem scanTriger_events (env : StaScanEnv) (channels : List Nat) :
    (atbmInternalCmdScanTriger env channels).2 = [] ∨
      (atbmInternalCmdScanTriger env channels).2 = [.alloc .scanReq, .free .scanReq] ∨
      (atbmInternalCmdScanTriger env channels).2 = [.alloc .scanReq, .handed .scanReq] := by
  unfold atbmInternalCmdScanTriger
  split
  · exact .inl rfl
  · split
    · exact .inl rfl
    · split
      · exact .inr (.inl rfl)
      · split
        · exact .inr (.inl rfl)
        · cases env.wait <;> exact .inr (.inr rfl)

theorem freedOnce_scan {l : List StaScanEvent}
    (h : l = [] ∨ l = [.alloc .scanReq, .free .scanReq] ∨ l = [.alloc .scanReq, .handed .scanReq]) (macs : Bool) :
    FreedOnce ([.alloc .recvInfo] ++ (if macs then [.alloc .macs] else []) ++ l ++
      ((if macs then [.free .macs] else []) ++ [.free .recvInfo])) := by
  rcases h with rfl | rfl | rfl
  · cases macs <;> intro b <;> cases b <;> decide
  · cases macs <;> intro b <;> cases b <;> decide
  · cases macs <;> intro b <;> cases b <;> decide

theorem staScanChannels_length (msg : Nat → UInt8) : (staScanChannels msg).length ≠ 1 := by
  unfold staScanChannels
  split
  · show (3 : Nat) ≠ 1
    decide
  · show (0 : Nat) ≠ 1
    decide

def macReads (msg : Nat → UInt8) : List Span :=
  if staScanMacs msg then (List.range macFilterNum).map fun i => ⟨2 + 6 * i, 6⟩ else []

theorem macReads_within (msg : Nat → UInt8) : ∀ s ∈ macReads msg, s.Within 256 := by
  unfold macReads
  split
  · intro s hs
    obtain ⟨i, hi, rfl⟩ := List.mem_map.mp hs
    have hlt := List.mem_range.mp hi
    unfold macFilterNum at hlt
    rw [Span.within_iff]
    right
    show 2 + 6 * i + 6 ≤ 256
    omega
  · intro s hs
    cases hs

theorem headReads_within : ∀ s ∈ ([⟨0, 2⟩, ⟨2, 6⟩] : List Span), s.Within 256 := by decide

section
variable {env : StaScanEnv} {msg user : Nat → UInt8} {table : List (List StoredSta)}

theorem staScan_stopped (h : ¬StaScanReaches env msg) :
    StaScanSound env msg (atbmDevSetStaScan env msg user table) := by
  have hearly : ∀ (ret : Int) (table' : List (List StoredSta)), ret ≠ 0 →
      StaScanSound env msg ⟨ret, user, [], [], [], table'⟩ := by
    intro ret table' hret
    exact ⟨fun h0 => absurd h0 hret, fun _ h => (List.not_mem_nil h).elim, fun _ h => (List.not_mem_nil h).elim,
      fun h0 => absurd h0 hret, fun b => .inl rfl⟩
  unfold atbmDevSetStaScan
  cases hrun : env.running with
  | false => exact hearly _ _ (by decide)
  | true =>
    cases hsta : env.station with
    | false => exact hearly _ _ (by decide)
    | true =>
      cases hrecv : env.recvAlloc with
      | false => exact hearly _ _ (by decide)
      | true =>
        have hnt : ¬(!true) = true := Bool.false_ne_true
        dsimp only
        rw [if_neg hnt, if_neg hnt, if_neg hnt]
        by_cases hmacs : (staScanMacs msg && !env.macsAlloc) = true
        · rw [if_pos hmacs]
          have hne : (-12 : Int) ≠ 0 := by decide
          refine ⟨fun h0 => absurd h0 hne, fun _ h => (List.not_mem_nil h).elim, headReads_within,
            fun h0 => absurd h0 hne, ?_⟩
          show FreedOnce [.alloc .recvInfo, .free .recvInfo]
          intro b
          cases b <;> decide
        · rw [if_neg hmacs]
          have hscan : (atbmInternalCmdScanTriger env (staScanChannels msg)).1 = false := by
            rw [Bool.eq_false_iff]
            intro ht
            obtain ⟨h1, h2, h3, h4, h5⟩ := scanTriger_eq_true.mp ht
            refine h ⟨hrun, hsta, hrecv, ?_, h1, h2, h3, h4, h5⟩
            intro hm
            rw [hm, Bool.true_and] at hmacs
            simpa using hmacs
          change StaScanSound env msg (if (!(atbmInternalCmdScanTriger env (staScanChannels msg)).1) = true then _ else _)
          rw [if_pos (show (!(atbmInternalCmdScanTriger env (staScanChannels msg)).1) = true by rw [hscan]; rfl)]
          have hne : (-95 : Int) ≠ 0 := by decide
          refine ⟨fun h0 => absurd h0 hne, fun _ h => (List.not_mem_nil h).elim, ?_,
            fun h0 => absurd h0 hne, freedOnce_scan (scanTriger_events env _) (staScanMacs msg)⟩
          exact List.forall_mem_append.mpr ⟨headReads_within, macReads_within msg⟩

theorem staScan_walked (h : StaScanReaches env msg) :
    atbmDevSetStaScan env msg user table =
      ⟨if macFilterNum * recvInfoSize ≤ env.copied then 0 else -22,
        write user 0 (read (scanInternalReqResults env.found ⟨true, 0, fun _ => 0, []⟩).1.priv 0
          (min env.copied (macFilterNum * recvInfoSize))),
        (scanInternalReqResults env.found ⟨true, 0, fun _ => 0, []⟩).1.copies,
        [⟨0, 2⟩, ⟨2, 6⟩] ++ macReads msg ++ [⟨50, 8⟩],
        [.alloc .recvInfo] ++ (if staScanMacs msg then [.alloc .macs] else []) ++
          (atbmInternalCmdScanTriger env (staScanChannels msg)).2 ++
          ((if staScanMacs msg then [.free .macs] else []) ++ [.free .recvInfo]),
        (scanInternalReqResults env.found ⟨true, 0, fun _ => 0, []⟩).2⟩ := by
  have hscan : (atbmInternalCmdScanTriger env (staScanChannels msg)).1 = true :=
    scanTriger_eq_true.mpr ⟨h.idle, h.reqAlloc, h.hasChannel, h.triger, h.finished⟩
  have hmacs : ¬(staScanMacs msg && !env.macsAlloc) = true := by
    intro hm
    rw [Bool.and_eq_true] at hm
    rw [h.macsAlloc hm.1] at hm
    exact Bool.false_ne_true hm.2
  have hsingle : ¬((staScanChannels msg).length = 1 ∧ env.bakAlloc = true) := fun hs => staScanChannels_length msg hs.1
  have hnt : ¬(!true) = true := Bool.false_ne_true
  unfold atbmDevSetStaScan
  rw [h.running, h.station, h.recvAlloc]
  dsimp only
  rw [if_neg hnt, if_neg hnt, if_neg hnt, if_neg hmacs]
  change (if (!(atbmInternalCmdScanTriger env (staScanChannels msg)).1) = true then _ else _) = _
  rw [if_neg (show ¬(!(atbmInternalCmdScanTriger env (staScanChannels msg)).1) = true by rw [hscan]; exact Bool.false_ne_true)]
  change StaScanEnd.mk _ (write user 0 (read (if (staScanChannels msg).length = 1 ∧ env.bakAlloc = true then _ else _) 0 _))
    _ _ (_ ++ (if (staScanChannels msg).length = 1 ∧ env.bakAlloc = true then _ else _) ++ _) _ = _
  rw [if_neg hsingle, if_neg hsingle, List.append_nil]
  rfl

theorem exported_channel {l : List StoredSta} {i : Nat} (hi : i < l.length) :
    exported l (i * recvInfoSize + recvChannel) = l[i].channel := by
  have hdiv : (i * recvInfoSize + recvChannel) / recvInfoSize = i := by
    rw [Nat.mul_comm, Nat.mul_add_div (by decide)]
    rfl
  have hmod : (i * recvInfoSize + recvChannel) % recvInfoSize = recvChannel := by
    rw [Nat.mul_comm, Nat.mul_add_mod]
    rfl
  unfold exported
  rw [hdiv, hmod, List.getElem?_eq_getElem hi]
  rfl

theorem exported_past {l : List StoredSta} {i : Nat} (hi : l.length ≤ i) :
    exported l (i * recvInfoSize + recvChannel) = 0 := by
  have hdiv : (i * recvInfoSize + recvChannel) / recvInfoSize = i := by
    rw [Nat.mul_comm, Nat.mul_add_div (by decide)]
    rfl
  unfold exported
  rw [hdiv, List.getElem?_eq_none hi]

def onChannel (channel : Nat) (s : StoredSta) : Bool := channel == 0 || s.channel.toNat == channel

theorem take_filter_and {α : Type} (p q : α → Bool) (n : Nat) (l : List α) :
    (∀ x ∈ (l.filter p).take n, q x = true) → (l.filter fun x => p x && q x).take n = (l.filter p).take n := by
  induction l generalizing n with
  | nil => exact fun _ => rfl
  | cons x l ih =>
    intro h
    cases hp : p x with
    | false =>
      have hneg : ¬p x = true := by simp [hp]
      rw [List.filter_cons_of_neg hneg] at h ⊢
      rw [List.filter_cons_of_neg (by simp [hp])]
      exact ih n h
    | true =>
      rw [List.filter_cons_of_pos hp] at h ⊢
      cases n with
      | zero => rfl
      | succ n =>
        rw [List.take_succ_cons, List.forall_mem_cons] at h
        rw [List.filter_cons_of_pos (by simp [hp, h.1]), List.take_succ_cons, List.take_succ_cons, ih n h.2]

theorem exported_wanted_iff (channel : Nat) (found : List (List StoredSta)) :
    (∀ a < macFilterNum * recvInfoSize, exported (firstStas found) a = exported (wantedStas channel found) a) ↔
      ∀ s ∈ firstStas found, onChannel channel s = true := by
  constructor
  · intro h s hs
    obtain ⟨i, hi, rfl⟩ := List.getElem_of_mem hs
    have hle : (firstStas found).length ≤ macFilterNum := List.length_take_le _ _
    have hbyte := h (i * recvInfoSize + recvChannel) (by
      have : i < macFilterNum := by omega
      have := Nat.mul_le_mul_right recvInfoSize (show i + 1 ≤ macFilterNum by omega)
      rw [Nat.add_mul, Nat.one_mul] at this
      have hch : recvChannel < recvInfoSize := by decide
      omega)
    rw [exported_channel hi] at hbyte
    by_cases hw : i < (wantedStas channel found).length
    · rw [exported_channel hw] at hbyte
      have hmem := List.mem_of_mem_take (List.getElem_mem hw)
      have hboth := (List.mem_filter.mp hmem).2
      rw [Bool.and_eq_true] at hboth
      unfold onChannel
      rw [hbyte]
      exact hboth.2
    · rw [exported_past (by omega)] at hbyte
      exact absurd hbyte (firstStas found)[i].channel_ne
  · intro h a _
    have : wantedStas channel found = firstStas found := take_filter_and hasSpecialIe (onChannel channel) _ _ h
    rw [this]

end

/-- **The private station scan.**  The call is sound exactly when it does not come to the results,
or every one of the first eight with a special IE has an SSID of at most 32 bytes and, if the
records get to the user, is on the channel asked for. -/
theorem staScanSound_iff (env : StaScanEnv) (msg user : Nat → UInt8) (table : List (List StoredSta)) :
    StaScanSound env msg (atbmDevSetStaScan env msg user table) ↔
      (StaScanReaches env msg →
        (∀ s ∈ firstStas env.found, s.ssid.length ≤ 32) ∧
          (macFilterNum * recvInfoSize ≤ env.copied → staScanChannel msg = 0 ∨
            ∀ s ∈ firstStas env.found, s.channel.toNat = staScanChannel msg)) := by
  by_cases hreach : StaScanReaches env msg
  · obtain ⟨hwalk, hempty⟩ := reqResults_spec env.found
    have hchannel : (∀ s ∈ firstStas env.found, onChannel (staScanChannel msg) s = true) ↔
        staScanChannel msg = 0 ∨ ∀ s ∈ firstStas env.found, s.channel.toNat = staScanChannel msg := by
      unfold onChannel
      by_cases h0 : staScanChannel msg = 0
      · exact iff_of_true (fun s _ => by rw [h0]; rfl) (.inl h0)
      · rw [beq_false_of_ne h0]
        simp only [Bool.false_or, beq_iff_eq, h0, false_or]
    rw [staScan_walked hreach, ← hchannel]
    constructor
    · intro hs _
      have hfits := hwalk.copies.mp hs.copies
      refine ⟨hfits, ?_⟩
      intro hcopied
      rw [← exported_wanted_iff]
      intro a ha
      have hrec := hs.records (if_pos hcopied) a ha
      rw [← hrec, ← hwalk.priv hfits a]
      dsimp only
      rw [Nat.min_eq_right hcopied, write_inside (by rw [length_read]; omega), Nat.sub_zero, getD_read ha, Nat.zero_add]
    · intro hcond
      obtain ⟨hfits, hon⟩ := hcond hreach
      refine ⟨?_, hwalk.copies.mpr hfits, ?_, fun _ => hempty, freedOnce_scan (scanTriger_events env _) _⟩
      · intro hret a ha
        have hcopied : macFilterNum * recvInfoSize ≤ env.copied := by
          by_contra hless
          dsimp only at hret
          rw [if_neg hless] at hret
          exact absurd hret (by decide)
        rw [← (exported_wanted_iff (staScanChannel msg) env.found).mpr (hon hcopied) a ha, ← hwalk.priv hfits a]
        dsimp only
        rw [Nat.min_eq_right hcopied, write_inside (by rw [length_read]; omega), Nat.sub_zero, getD_read ha, Nat.zero_add]
      · refine List.forall_mem_append.mpr ⟨List.forall_mem_append.mpr ⟨headReads_within, macReads_within msg⟩, ?_⟩
        decide
  · exact iff_of_true (staScan_stopped hreach) fun h => absurd h hreach

def strayOnEleven : StoredSta := ⟨Vector.replicate 6 2, [], 11, 200, [1], by decide, by decide, by decide⟩

def scanAllWell : StaScanEnv where
  running := true
  station := true
  recvAlloc := true
  macsAlloc := true
  bakAlloc := true
  busy := false
  reqAlloc := true
  hasChannel _ := true
  triger := true
  wait := .finished
  found := [[strayOnEleven]]
  copied := macFilterNum * recvInfoSize

def msgForSix : Nat → UInt8 := fun i => if i = 0 then 6 else 0

/-- The record of the result on channel 11 is handed out for channel 6. -/
theorem strayOnEleven_exported :
    ¬StaScanSound scanAllWell msgForSix (atbmDevSetStaScan scanAllWell msgForSix (fun _ => 0) []) := by
  intro h
  have hbyte := h.records rfl recvChannel (by decide)
  revert hbyte
  decide +kernel

end AtbmWifi
