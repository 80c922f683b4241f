import AtbmWifi.Scan.RxInternal

/-!
# The frames of an internal scan and their buffers

The reads of the RSN element are in the frame exactly when the number of key management suites is (`encWpa2_within`).
With it, `scanRxInternal_sound_iff` says for which frames a call stays in its bounds and accounts for its buffers.
-/

namespace AtbmWifi

open Memory Wire

namespace ScanElems

variable {m : Nat → UInt8} {e : Nat} {r : ScanElems} {s : Span}

/-- An element, with the length it announces, that ends before `e`. -/
structure Elem (m : Nat → UInt8) (e : Nat) (s : Span) : Prop where
  inside : s.off + s.size ≤ e
  announced : (m (s.off - 1)).toNat = s.size

/-- Nothing was read behind `e`, and the elements end before it. -/
structure Inside (m : Nat → UInt8) (e : Nat) (r : ScanElems) : Prop where
  reads : ∀ s ∈ r.reads, s.Within e
  ssid : ∀ s, r.ssid = some s → Elem m e s
  dsParams : ∀ s, r.dsParams = some s → Elem m e s
  rsn : ∀ s, r.rsn = some s → Elem m e s
  wpa : ∀ s, r.wpa = some s → Elem m e s
  atbmSpecial : ∀ s, r.atbmSpecial = some s → Elem m e s

theorem Inside.read (h : r.Inside m e) (hs : s.Within e) : Inside m e { r with reads := s :: r.reads } :=
  { h with reads := List.forall_mem_cons.mpr ⟨hs, h.reads⟩ }

theorem Inside.putVendor (h : r.Inside m e) (hs : Elem m e s) : Inside m e (r.putVendor m s) := by
  have hin := hs.inside
  unfold ScanElems.putVendor
  split
  · exact h
  · next hsize =>
    split
    · have hread := h.read (s := ⟨s.off, 4⟩) ((Span.within_of_pos (by decide)).mpr (by omega))
      dsimp only
      split
      · exact { hread with wpa := fun s' hs' => Option.some.inj hs' ▸ hs }
      · split
        · next htype => exact hread.read ((Span.within_of_pos (by decide)).mpr (by omega))
        · exact hread
    · apply h.read
      split
      · exact (Span.within_of_pos (by decide)).mpr (by omega)
      · exact (Span.within_of_pos (by decide)).mpr (by omega)

theorem Inside.put {id : UInt8} (h : r.Inside m e) (hs : Elem m e s) : Inside m e (r.put m id s) := by
  unfold ScanElems.put
  split
  · exact { h with ssid := fun s' hs' => Option.some.inj hs' ▸ hs }
  · split
    · exact { h with dsParams := fun s' hs' => Option.some.inj hs' ▸ hs }
    · split
      · exact h.putVendor hs
      · split
        · exact { h with rsn := fun s' hs' => Option.some.inj hs' ▸ hs }
        · split
          · exact { h with atbmSpecial := fun s' hs' => Option.some.inj hs' ▸ hs }
          · exact h

theorem Inside.parseLoop {pos left : Nat} (h : r.Inside m e) (he : pos + left = e) : Inside m e (parseLoop m pos left r) := by
  fun_induction ScanElems.parseLoop m pos left r with
  | case1 pos left r hshort => exact h
  | case2 pos left r hroom r' hcut => exact h.read ((Span.within_of_pos (by decide)).mpr (by omega))
  | case3 pos left r hroom r' hcut ih =>
    have hread := h.read (s := ⟨pos, 2⟩) ((Span.within_of_pos (by decide)).mpr (by omega))
    exact ih (hread.put ⟨by dsimp only; omega, rfl⟩) (by omega)

theorem parse_inside {start len : Nat} : (parse m start len).Inside m (start + len) :=
  Inside.parseLoop ⟨nofun, nofun, nofun, nofun, nofun, nofun⟩ rfl

end ScanElems

section

variable {m : Nat → UInt8} {bits : Nat → BitVec 32} {least left : Int} {n pos e : Nat} {flag : BitVec 32} {ie : Span}
  {o : Option Span} {l l' : List Span}

/-- Every one of the spans is among the first `e` bytes. -/
def AllWithin (e : Nat) (l : List Span) : Prop := ∀ s ∈ l, s.Within e

theorem allWithin_nil : AllWithin e [] := nofun

theorem allWithin_cons {s : Span} : AllWithin e (s :: l) ↔ s.Within e ∧ AllWithin e l := List.forall_mem_cons

theorem allWithin_append : AllWithin e (l ++ l') ↔ AllWithin e l ∧ AllWithin e l' := List.forall_mem_append

theorem suiteLoop_four {left : Nat} :
    (suiteLoop m bits 4 n pos left flag).pos = pos + 4 * min n (left / 4) ∧
      (suiteLoop m bits 4 n pos left flag).left = left - 4 * min n (left / 4) ∧
      (pos + left ≤ e → AllWithin e (suiteLoop m bits 4 n pos left flag).reads) := by
  induction n generalizing pos left flag with
  | zero => exact ⟨by simp [suiteLoop], by simp [suiteLoop], fun _ => allWithin_nil⟩
  | succ n ih =>
    unfold suiteLoop
    by_cases hshort : (left : Int) < 4
    · rw [if_pos hshort]
      exact ⟨by dsimp only; omega, by dsimp only; omega, fun _ => allWithin_nil⟩
    · rw [if_neg hshort]
      dsimp only
      obtain ⟨rest, rfl⟩ : ∃ rest, left = rest + 4 := ⟨left - 4, by omega⟩
      have hleft : ((rest + 4 : Nat) : Int) - 4 = (rest : Nat) := by omega
      rw [hleft]
      obtain ⟨hpos, hl, hreads⟩ := @ih (pos + 4) (flag ||| bits (getBe32 m pos)) rest
      refine ⟨by omega, by omega, fun hin => allWithin_cons.mpr ⟨?_, hreads (by omega)⟩⟩
      exact (Span.within_of_pos (by decide)).mpr (by omega)

theorem suiteLoop_short (h : left < 4) : (suiteLoop m bits 4 n pos left flag).reads = [] := by
  cases n with
  | zero => rfl
  | succ n =>
    unfold suiteLoop
    rw [if_pos h]

theorem suiteLoop_within (h : pos + 4 * n ≤ e) : AllWithin e (suiteLoop m bits least n pos left flag).reads := by
  induction n generalizing pos left flag with
  | zero => exact allWithin_nil
  | succ n ih =>
    unfold suiteLoop
    split
    · exact allWithin_nil
    · exact allWithin_cons.mpr ⟨(Span.within_of_pos (by decide)).mpr (by omega), ih (by omega)⟩

theorem encWpa_within (h : ie.off + ie.size ≤ e) : AllWithin e (encWpa m ie).reads := by
  unfold encWpa
  dsimp only
  split
  · exact allWithin_nil
  · split
    · exact allWithin_nil
    · have hcount : (Span.mk (ie.off + 6 + 4) 2).Within e := (Span.within_of_pos (by decide)).mpr (by omega)
      split
      · exact allWithin_cons.mpr ⟨hcount, allWithin_nil⟩
      · next hfits =>
        obtain ⟨-, hfits⟩ := not_or.mp hfits
        exact allWithin_cons.mpr ⟨hcount, suiteLoop_within (by omega)⟩

/-- The RSN element, or what follows it in the frame, is not left exactly when the second number is there. -/
theorem encWpa2_within (h : ie.off + ie.size ≤ e) :
    AllWithin e (encWpa2 m ie).reads ↔ (8 ≤ ie.size → ie.off + 8 + 4 * pairwiseTurns m ie + 2 ≤ e) := by
  unfold encWpa2
  dsimp only
  by_cases h6 : (ie.size : Int) - 2 < 4
  · rw [if_pos h6]
    exact ⟨fun _ _ => by omega, fun _ => allWithin_nil⟩
  · rw [if_neg h6]
    by_cases h8 : (ie.size : Int) - 2 - 4 < 2
    · rw [if_pos h8]
      exact ⟨fun _ _ => by omega, fun _ => allWithin_nil⟩
    · rw [if_neg h8]
      obtain ⟨left, hsize⟩ : ∃ left, ie.size = left + 8 := ⟨ie.size - 8, by omega⟩
      have hleft : (ie.size : Int) - 2 - 4 - 2 = (left : Nat) := by omega
      have hturns : pairwiseTurns m ie = min (getLe16 m (ie.off + 2 + 4)) (left / 4) := by
        unfold pairwiseTurns
        rw [hsize, Nat.add_sub_cancel]
      obtain ⟨hpos, hl, hreads⟩ := @suiteLoop_four m getSelectorToBitfield (getLe16 m (ie.off + 2 + 4)) (ie.off + 2 + 4 + 2) e 0 left
      rw [hleft, hpos, hl, hturns]
      generalize hn : min (getLe16 m (ie.off + 2 + 4)) (left / 4) = turns
      have hauth (hcount : ie.off + 2 + 4 + 2 + 4 * turns + 2 ≤ e) (n : Nat) :
          AllWithin e (suiteLoop m getRsnKeyMgmtToBitfield 4 n (ie.off + 2 + 4 + 2 + 4 * turns + 2)
            ((left : Int) - 4 * turns - 2) 0).reads := by
        by_cases hshort : (left : Int) - 4 * turns - 2 < 4
        · rw [suiteLoop_short hshort]
          exact allWithin_nil
        · obtain ⟨rest, hrest⟩ : ∃ rest : Nat, (left : Int) - 4 * turns - 2 = rest :=
            ⟨left - 4 * turns - 2, by omega⟩
          rw [hrest]
          exact suiteLoop_four.2.2 (by omega)
      constructor
      · intro hall _
        have hcount := (allWithin_cons.mp (allWithin_append.mp hall).2).1
        rw [Span.within_of_pos (by decide)] at hcount
        omega
      · intro hcount
        have hcount := hcount (by omega)
        refine allWithin_append.mpr ⟨allWithin_cons.mpr ⟨?_, hreads (by omega)⟩, allWithin_cons.mpr ⟨?_, ?_⟩⟩
        · exact (Span.within_of_pos (by decide)).mpr (by omega)
        · exact (Span.within_of_pos (by decide)).mpr (by omega)
        · have hend := hauth (by omega) (getLe16 m (ie.off + 2 + 4 + 2 + 4 * turns))
          exact_mod_cast hend

theorem wpa_within (h : ∀ s, o = some s → s.off + s.size ≤ e) :
    AllWithin e (getApEncryptionAlgorithm m o .wpa).reads := by
  cases o with
  | none => exact allWithin_nil
  | some s =>
    show AllWithin e (if s.size = 0 then (⟨0, []⟩ : EncRun) else encWpa m s).reads
    split
    · exact allWithin_nil
    · exact encWpa_within (h s rfl)

theorem wpa2_within (h : ∀ s, o = some s → s.off + s.size ≤ e) :
    AllWithin e (getApEncryptionAlgorithm m o .wpa2).reads ↔
      ∀ s, o = some s → 8 ≤ s.size → s.off + 8 + 4 * pairwiseTurns m s + 2 ≤ e := by
  cases o with
  | none => exact ⟨fun _ => nofun, fun _ => allWithin_nil⟩
  | some s =>
    have hiff := @encWpa2_within m e s (h s rfl)
    show AllWithin e (if s.size = 0 then (⟨0, []⟩ : EncRun) else encWpa2 m s).reads ↔ _
    simp only [Option.some.injEq, forall_eq']
    split
    · exact ⟨fun _ _ => by omega, fun _ => allWithin_nil⟩
    · exact hiff

end

namespace ScanEnv

variable {env : ScanEnv} {k : ScanSkb} {elems : ScanElems} {e : Nat}

theorem encryption_within (h : elems.Inside k.mem e) (he : ScanSkb.baselen ≤ e) :
    AllWithin e (encryption k elems).2.2 ↔
      ∀ s, elems.rsn = some s → 8 ≤ s.size → s.off + 8 + 4 * pairwiseTurns k.mem s + 2 ≤ e := by
  have he : 36 ≤ e := he
  have hwpa2 := @wpa2_within k.mem e elems.rsn fun s hs => (h.rsn s hs).inside
  have hwpa := @wpa_within k.mem e elems.wpa fun s hs => (h.wpa s hs).inside
  have hcapab : AllWithin e [⟨34, 2⟩] := allWithin_cons.mpr ⟨(Span.within_of_pos (by decide)).mpr he, allWithin_nil⟩
  unfold encryption
  by_cases hrsn : Present elems.rsn
  · by_cases hboth : Present elems.rsn ∧ Present elems.wpa
    · rw [if_pos hboth]
      exact allWithin_append.trans ((and_iff_left hwpa).trans hwpa2)
    · rw [if_neg hboth, if_pos hrsn]
      exact hwpa2
  · have hright : ∀ s, elems.rsn = some s → 8 ≤ s.size → s.off + 8 + 4 * pairwiseTurns k.mem s + 2 ≤ e :=
      fun s hs h8 => absurd ⟨s, hs, by omega⟩ hrsn
    rw [if_neg fun hboth => hrsn hboth.1, if_neg hrsn]
    refine ⟨fun _ => hright, fun _ => ?_⟩
    split
    · exact hwpa
    · split
      · exact hcapab
      · exact hcapab

structure Settled (reads : List Span) (n : Nat) (o : ScanRx) : Prop where
  reads : o.reads = reads
  ssid : o.ssidCopied = n
  skb : o.events.countP ScanEvent.consumes = if o.ret = .queued then 1 else 0
  ie : o.events.countP ScanEvent.releases = o.events.count .ieAllocated

theorem deliver_settled (sta : InternalScanSta) (reads : List Span) : Settled reads sta.ssidLen (env.deliver sta reads) := by
  unfold deliver
  dsimp only
  by_cases hcca : env.cca = true ∧ sta.cca = false
  · rw [if_pos hcca]
    cases sta.ie <;> exact ⟨rfl, rfl, rfl, rfl⟩
  · rw [if_neg hcca]
    cases env.staHandler with
    | some func =>
      dsimp only
      by_cases hfunc : func sta = false
      · rw [if_pos hfunc]
        cases sta.ie <;> exact ⟨rfl, rfl, rfl, rfl⟩
      · rw [if_neg hfunc]
        cases sta.ie <;> exact ⟨rfl, rfl, rfl, rfl⟩
    | none =>
      dsimp only
      by_cases hresults : env.resultsHandle = true
      · rw [if_pos hresults]
        cases sta.ie <;> exact ⟨rfl, rfl, rfl, rfl⟩
      · rw [if_neg hresults]
        cases sta.ie <;> exact ⟨rfl, rfl, rfl, rfl⟩

theorem deliver_sound {sta : InternalScanSta} {reads : List Span} :
    (env.deliver sta reads).Sound e ↔ AllWithin e reads ∧ sta.ssidLen ≤ 32 := by
  obtain ⟨hreads, hssid, hskb, hie⟩ := @deliver_settled env sta reads
  constructor
  · intro h
    exact ⟨hreads ▸ h.reads, hssid ▸ h.ssid⟩
  · rintro ⟨hr, hs⟩
    exact ⟨hreads.symm ▸ hr, hssid.symm ▸ hs, hskb, hie⟩

theorem leave_sound {ret : RxResult} {reads : List Span} (hret : ret ≠ .queued) (hreads : AllWithin e reads) :
    (⟨ret, reads, 0, []⟩ : ScanRx).Sound e :=
  ⟨hreads, Nat.zero_le 32, (if_neg hret).symm, rfl⟩

theorem examine_sound {reads : List Span} (hlen : ScanSkb.baselen ≤ k.len) (hreads : AllWithin k.len reads) :
    (env.examine k reads).Sound k.len ↔ ElemsFit k := by
  have h36 : 36 ≤ k.len := hlen
  have hin : (ScanElems.parse k.mem ScanSkb.baselen (k.len - ScanSkb.baselen)).Inside k.mem k.len := by
    have h := @ScanElems.parse_inside k.mem ScanSkb.baselen (k.len - ScanSkb.baselen)
    rwa [Nat.add_sub_cancel' hlen] at h
  have hfit : ElemsFit k ↔
      (∀ s, (ScanElems.parse k.mem ScanSkb.baselen (k.len - ScanSkb.baselen)).ssid = some s → s.size ≤ 32) ∧
      ∀ s, (ScanElems.parse k.mem ScanSkb.baselen (k.len - ScanSkb.baselen)).rsn = some s → 8 ≤ s.size →
        s.off + 8 + 4 * pairwiseTurns k.mem s + 2 ≤ k.len := ⟨fun h => ⟨h.ssid, h.rsn⟩, fun h => ⟨h.1, h.2⟩⟩
  rw [hfit]
  unfold examine
  dsimp only
  generalize ScanElems.parse k.mem ScanSkb.baselen (k.len - ScanSkb.baselen) = elems at hin ⊢
  rw [← encryption_within hin hlen]
  have hssid : (elems.ssid.getD ⟨0, 0⟩).size ≤ 32 ↔ ∀ s, elems.ssid = some s → s.size ≤ 32 := by
    cases elems.ssid with
    | none => exact ⟨fun _ => nofun, fun _ => by decide⟩
    | some s => simp
  have hspan (o : Option Span) (ho : ∀ s, o = some s → ScanElems.Elem k.mem k.len s) : (o.getD ⟨0, 0⟩).Within k.len := by
    cases o with
    | none => exact Span.within_iff.mpr (.inl rfl)
    | some s => exact Span.within_iff.mpr (.inr (ho s rfl).inside)
  have hds : AllWithin k.len (elems.dsParams.toList.filter fun s => s.size = 1) := by
    intro s hs
    have hsome := Option.mem_toList.mp (List.mem_filter.mp hs).1
    exact Span.within_iff.mpr (.inr (hin.dsParams s hsome).inside)
  have hbssid : (Span.mk 16 6).Within k.len := (Span.within_of_pos (by decide)).mpr (by omega)
  have hall : AllWithin k.len (reads ++ elems.reads ++ (elems.dsParams.toList.filter fun s => s.size = 1) ++
      (encryption k elems).2.2 ++ [⟨16, 6⟩, elems.ssid.getD ⟨0, 0⟩]) ↔ AllWithin k.len (encryption k elems).2.2 := by
    simp only [allWithin_append, allWithin_cons, hreads, hds, hbssid, hspan elems.ssid hin.ssid, allWithin_nil, and_true,
      true_and]
    exact and_iff_right hin.reads
  have hdrop (ret : RxResult) (hret : ret ≠ .queued) (l : List Span) (n : Nat) :
      (⟨ret, l, n, []⟩ : ScanRx).Sound k.len ↔ AllWithin k.len l ∧ n ≤ 32 :=
    ⟨fun h => ⟨h.reads, h.ssid⟩, fun h => ⟨h.1, h.2, (if_neg hret).symm, rfl⟩⟩
  rw [and_comm (a := ∀ s, elems.ssid = some s → s.size ≤ 32), ← hssid, ← hall]
  split
  · exact hdrop _ (by decide) _ _
  · split
    · exact deliver_sound
    · split
      · exact hdrop _ (by decide) _ _
      · rw [deliver_sound, allWithin_append, allWithin_cons]
        simp only [hspan elems.atbmSpecial hin.atbmSpecial, allWithin_nil, and_true]

theorem header_within (h24 : 24 ≤ k.len) : AllWithin k.len (⟨0, 2⟩ :: daRead k) := by
  refine allWithin_cons.mpr ⟨(Span.within_of_pos (by decide)).mpr (by omega), ?_⟩
  unfold daRead
  split
  · exact allWithin_cons.mpr ⟨(Span.within_of_pos (by decide)).mpr (by omega), allWithin_nil⟩
  · exact allWithin_nil

theorem frameControl_within (h2 : 2 ≤ k.len) : AllWithin k.len [⟨0, 2⟩] :=
  allWithin_cons.mpr ⟨(Span.within_of_pos (by decide)).mpr h2, allWithin_nil⟩

theorem scanRx_sound : (env.scanRx k).Sound k.len := by
  unfold scanRx
  dsimp only
  split
  · exact leave_sound (by decide) allWithin_nil
  · next h2 =>
    have hfc := @frameControl_within k (by omega)
    split
    · exact leave_sound (by decide) hfc
    · split
      · exact leave_sound (by decide) hfc
      · next h24 =>
        have hheader := @header_within k (by omega)
        split
        · exact leave_sound (by decide) hfc
        · split
          · exact leave_sound (by decide) hheader
          · split
            · exact leave_sound (by decide) hfc
            · split
              · exact leave_sound (by decide) hheader
              · exact ⟨hheader, Nat.zero_le 32, rfl, rfl⟩

theorem scanRxInternalSkb_sound : (env.scanRxInternalSkb k).Sound k.len := by
  unfold scanRxInternalSkb
  dsimp only
  split
  · exact leave_sound (by decide) allWithin_nil
  · next h2 =>
    have hfc := @frameControl_within k (by omega)
    cases env.skbHandler with
    | none => exact leave_sound (by decide) allWithin_nil
    | some func =>
      dsimp only
      split
      · exact leave_sound (by decide) hfc
      · split
        · exact leave_sound (by decide) hfc
        · split
          · exact leave_sound (by decide) hfc
          · split
            · exact leave_sound (by decide) hfc
            · split
              · exact leave_sound (by decide) hfc
              · exact ⟨hfc, Nat.zero_le 32, rfl, rfl⟩

theorem frame_types :
    (k.isBeacon = true ∨ k.isProbeResp = true → k.isCtl = false) ∧ ¬ (k.isBeacon = true ∧ k.isProbeResp = true) := by
  have htype : k.mem 0 &&& 0x0c = k.mem 0 &&& 0xfc &&& 0x0c := by
    rw [UInt8.and_assoc]
    rfl
  unfold ScanSkb.isCtl ScanSkb.isBeacon ScanSkb.isProbeResp
  rw [htype]
  simp only [beq_iff_eq]
  constructor
  · rintro (h | h)
    · rw [h]
      rfl
    · rw [h]
      rfl
  · rintro ⟨hb, hp⟩
    exact absurd (hb.symm.trans hp) (by decide)

theorem scanRxInternalStaInfo_sound (hkind : env.updateBss = false ∧ env.resultsSkb = false) :
    (env.scanRxInternalStaInfo k).Sound k.len ↔ (env.Examined k → ElemsFit k) := by
  have htypes := @frame_types k
  unfold scanRxInternalStaInfo
  dsimp only
  have hleave {o : ScanRx} (hsound : o.Sound k.len) (hno : ¬ env.Examined k) :
      o.Sound k.len ↔ (env.Examined k → ElemsFit k) := ⟨fun _ h => absurd h hno, fun _ => hsound⟩
  by_cases h2 : k.len < 2
  · rw [if_pos h2]
    exact hleave (leave_sound (by decide) allWithin_nil) fun h => absurd h.len (by unfold ScanSkb.baselen; omega)
  · have hfc := @frameControl_within k (by omega)
    rw [if_neg h2]
    by_cases hctl : k.isCtl = true
    · rw [if_pos hctl]
      refine hleave (leave_sound (by decide) hfc) fun h => ?_
      have hnot := htypes.1 (h.type.imp_right And.left)
      rw [hctl] at hnot
      cases hnot
    · rw [if_neg hctl]
      by_cases h24 : k.len < 24
      · rw [if_pos h24]
        exact hleave (leave_sound (by decide) hfc) fun h => absurd h.len (by unfold ScanSkb.baselen; omega)
      · have hheader := @header_within k (by omega)
        rw [if_neg h24]
        by_cases hda : k.isProbeResp = true ∧ k.da ≠ env.addr
        · rw [if_pos hda]
          refine hleave (leave_sound (by decide) hheader) fun h => ?_
          rcases h.type with hbeacon | hresp
          · exact htypes.2 ⟨hbeacon, hda.1⟩
          · exact hda.2 hresp.2
        · rw [if_neg hda]
          by_cases hother : k.isProbeResp = false ∧ k.isBeacon = false
          · rw [if_pos hother]
            refine hleave (leave_sound (by decide) hfc) fun h => ?_
            rcases h.type with hbeacon | hresp
            · exact absurd (hbeacon.symm.trans hother.2) (by decide)
            · exact absurd (hresp.1.symm.trans hother.1) (by decide)
          · rw [if_neg hother]
            by_cases h36 : k.len < ScanSkb.baselen
            · rw [if_pos h36]
              exact hleave (leave_sound (by decide) hheader) fun h => absurd h.len (Nat.not_le.mpr h36)
            · rw [if_neg h36]
              by_cases hmac : env.nMacs ≠ 0 ∧ env.macListed k.bssid = false
              · rw [if_pos hmac]
                refine hleave (leave_sound (by decide) (allWithin_append.mpr ⟨hheader, ?_⟩)) fun h => ?_
                · exact allWithin_cons.mpr ⟨(Span.within_of_pos (by decide)).mpr (by omega), allWithin_nil⟩
                · exact absurd ((h.listed hmac.1).symm.trans hmac.2) (by decide)
              · rw [if_neg hmac, examine_sound (Nat.not_lt.mp h36) hheader]
                have hexamined : env.Examined k := by
                  refine ⟨hkind, Nat.not_lt.mp h36, ?_, fun hmacs => ?_⟩
                  · cases hbeacon : k.isBeacon with
                    | true => exact .inl rfl
                    | false =>
                      have hresp : k.isProbeResp = true := by
                        cases hresp : k.isProbeResp with
                        | true => rfl
                        | false => exact absurd ⟨hresp, hbeacon⟩ hother
                      exact .inr ⟨hresp, Classical.byContradiction fun hne => hda ⟨hresp, hne⟩⟩
                  · cases hlisted : env.macListed k.bssid with
                    | true => rfl
                    | false => exact absurd ⟨hmacs, hlisted⟩ hmac
                exact ⟨fun h _ => h, fun h => h hexamined⟩

/-- **A call stays in the frame and in the SSID and accounts for the frame and the copy, exactly when the frame is not
beyond the limit of the country, and fits if it is parsed.** -/
theorem scanRxInternal_sound_iff (env : ScanEnv) (k : ScanSkb) :
    (env.scanRxInternal k).Sound k.len ↔ env.limited k = false ∧ (env.Examined k → ElemsFit k) := by
  unfold scanRxInternal
  by_cases hlimited : env.limited k = true
  · rw [if_pos hlimited]
    exact ⟨fun h => absurd h.skb (by decide), fun h => absurd (hlimited.symm.trans h.1) (by decide)⟩
  · rw [if_neg hlimited]
    have hfree : env.limited k = false := by simpa using hlimited
    by_cases hbss : env.updateBss = true
    · rw [if_pos hbss]
      exact ⟨fun _ => ⟨hfree, fun h => absurd (hbss.symm.trans h.kind.1) (by decide)⟩, fun _ => scanRx_sound⟩
    · rw [if_neg hbss]
      by_cases hskb : env.resultsSkb = true
      · rw [if_pos hskb]
        exact ⟨fun _ => ⟨hfree, fun h => absurd (hskb.symm.trans h.kind.2) (by decide)⟩, fun _ => scanRxInternalSkb_sound⟩
      · rw [if_neg hskb, scanRxInternalStaInfo_sound ⟨by simpa using hbss, by simpa using hskb⟩]
        exact (and_iff_right hfree).symm

def stored : ScanEnv :=
  { only24 := false, countryCode := [48, 48], scanSdata := true, addr := [2, 0, 0, 0, 0, 9], updateBss := false,
    resultsSkb := false, resultsHandle := true, cca := false, nMacs := 0, macListed := fun _ => false, staHandler := none,
    skbHandler := none, alloc := true, freq := 2412, signal := 60, channelToFrequency := fun c => 2407 + 5 * c.toNat,
    frequencyToChannel := fun f => (f - 2407) / 5, getChannel := fun f => some ⟨(f - 2407) / 5, false⟩ }

/-- A beacon with an RSN element that ends behind its number of pairwise ciphers. -/
def cutRsn : ScanSkb :=
  ⟨fun x => (0x80 :: List.replicate 35 0 ++ [48, 8, 1, 0, 0, 0x0f, 0xac, 4, 0, 0] : List UInt8).getD x 0, 46⟩

/-- The number of key management suites is read behind the frame. -/
theorem scanRxInternal_cutRsn : ¬ (stored.scanRxInternal cutRsn).Sound cutRsn.len := by
  intro h
  have hexamined : stored.Examined cutRsn := ⟨⟨rfl, rfl⟩, by decide, .inl (by decide), fun h => absurd rfl h⟩
  have hfit := (scanRxInternalStaInfo_sound ⟨rfl, rfl⟩).mp h hexamined
  have hparse : (ScanElems.parse cutRsn.mem ScanSkb.baselen (cutRsn.len - ScanSkb.baselen)).rsn = some ⟨38, 8⟩ := by
    show (ScanElems.parseLoop cutRsn.mem 36 10 ScanElems.zero).rsn = _
    rw [ScanElems.parseLoop, if_neg (by decide)]
    dsimp only
    rw [if_neg (by decide)]
    show (ScanElems.parseLoop cutRsn.mem 46 0 _).rsn = _
    rw [ScanElems.parseLoop, if_pos (by decide)]
    rfl
  exact absurd (hfit.rsn _ hparse (by decide)) (by decide)

end ScanEnv

end AtbmWifi
