import AtbmWifi.Lib.Element
import AtbmWifi.Lib.Message

/-!
# The filters for special frames

`ieee80211_special_check_package` holds each beacon and probe request against the filters of every interface
that is up, and queues a copy for the interface if one is satisfied.  A filter is of a frame type, or of an
element that is found by its id; one with an OUI looks at the first three bytes of the element and goes on to the next
one.  `atbm_ieee80211_find_ie` does not look at the id where just two bytes are left, and the OUI is held against the
bytes behind the length however short the element is: `Satisfied` is where a filter comes to its end, `Matches`
where it should.
-/

namespace AtbmWifi

namespace SpecialFilter

open Memory Wire Tlv

structure Found where
  target : Option Nat
  reads : List Span

def findIe (m : Nat → UInt8) (eid : UInt8) (ies : Nat) (len : Int) : Found :=
  if 2 < len ∧ m ies ≠ eid then
    let r := findIe m eid (ies + ((m (ies + 1)).toNat + 2)) (len - ((m (ies + 1)).toNat + 2))
    { r with reads := ⟨ies, 2⟩ :: r.reads }
  else
    { target := if len < 2 then none else if len < 2 + (m (ies + 1)).toNat then none else some ies
      reads := (if 2 < len then [⟨ies, 1⟩] else []) ++ if 2 ≤ len then [⟨ies + 1, 1⟩] else [] }
termination_by len.toNat
decreasing_by omega

/-- The walk comes to a whole element there, and it has the id or is the last two bytes. -/
structure Returned (m : Nat → UInt8) (eid : UInt8) (e p q : Nat) : Prop where
  visits : Visits m 2 e p q
  whole : q + ((m (q + 1)).toNat + 2) ≤ e
  id : m q = eid ∨ q + 2 = e

variable {m : Nat → UInt8} {eid : UInt8} {e p q t : Nat} {len : Int}

theorem returned_next (hp : p + 2 ≤ e) (hn : ¬ (p + ((m (p + 1)).toNat + 2) ≤ e ∧ (m p = eid ∨ p + 2 = e))) :
    Returned m eid e p q ↔ Returned m eid e (p + ((m (p + 1)).toNat + 2)) q := by
  constructor
  · rintro ⟨hv, hw, hid⟩
    rcases (visits_iff.mp hv).2 with rfl | hv
    · exact absurd ⟨hw, hid⟩ hn
    · exact ⟨hv, hw, hid⟩
  · rintro ⟨hv, hw, hid⟩
    exact ⟨.next hp hv, hw, hid⟩

theorem not_returned_of_lt (hp : e < p + 2) : ¬ Returned m eid e p q := by
  intro h
  have := h.visits.left
  omega

theorem findIe_target (he : (p : Int) + len = e) :
    match (findIe m eid p len).target with
    | none => ∀ q, ¬ Returned m eid e p q
    | some t => Returned m eid e p t ∧ ∀ q, Returned m eid e p q → t ≤ q := by
  fun_induction findIe m eid p len with
  | case1 p len h r ih =>
    have hnext := @returned_next m eid e p
    have hp : p + 2 ≤ e := by omega
    have hn : ¬ (p + ((m (p + 1)).toNat + 2) ≤ e ∧ (m p = eid ∨ p + 2 = e)) := by
      rintro ⟨-, hid | hlast⟩
      · exact h.2 hid
      · omega
    have ih := ih (by push_cast; omega)
    show match r.target with
      | none => ∀ q, ¬ Returned m eid e p q
      | some t => Returned m eid e p t ∧ ∀ q, Returned m eid e p q → t ≤ q
    cases ht : r.target with
    | none =>
      rw [ht] at ih
      intro q hq
      exact ih q ((hnext hp hn).mp hq)
    | some t =>
      rw [ht] at ih
      exact ⟨(hnext hp hn).mpr ih.1, fun q hq => ih.2 q ((hnext hp hn).mp hq)⟩
  | case2 p len h =>
    by_cases hshort : len < 2
    · rw [if_pos hshort]
      intro q
      exact not_returned_of_lt (by omega)
    · rw [if_neg hshort]
      by_cases hcut : len < 2 + (m (p + 1)).toNat
      · rw [if_pos hcut]
        intro q hq
        have hn : ¬ (p + ((m (p + 1)).toNat + 2) ≤ e ∧ (m p = eid ∨ p + 2 = e)) := by omega
        exact not_returned_of_lt (by omega) ((returned_next (by omega) hn).mp hq)
      · rw [if_neg hcut]
        refine ⟨⟨.here (by omega), by omega, ?_⟩, fun q hq => hq.visits.le⟩
        by_cases hid : m p = eid
        · exact .inl hid
        · exact .inr (by have : ¬ 2 < len := fun h2 => h ⟨h2, hid⟩; omega)

theorem findIe_none (he : (p : Int) + len = e) (h : (findIe m eid p len).target = none) :
    ¬ Returned m eid e p q := by
  have htarget := @findIe_target m eid e p len he
  rw [h] at htarget
  exact htarget q

theorem findIe_some (he : (p : Int) + len = e) (h : (findIe m eid p len).target = some t) :
    Returned m eid e p t ∧ ∀ q, Returned m eid e p q → t ≤ q := by
  have htarget := @findIe_target m eid e p len he
  rw [h] at htarget
  exact htarget

theorem findIe_eq_some (he : (p : Int) + len = e) :
    (findIe m eid p len).target = some t ↔ Returned m eid e p t ∧ ∀ q, Returned m eid e p q → t ≤ q := by
  constructor
  · exact findIe_some he
  · rintro ⟨ht, hfirst⟩
    cases h : (findIe m eid p len).target with
    | none => exact absurd ht (findIe_none he h)
    | some t' =>
      obtain ⟨ht', hfirst'⟩ := findIe_some he h
      rw [Nat.le_antisymm (hfirst t' ht') (hfirst' t ht)]

theorem findIe_reads (he : (p : Int) + len = e) : ∀ s ∈ (findIe m eid p len).reads, s.Within e := by
  fun_induction findIe m eid p len with
  | case1 p len h r ih =>
    intro s hs
    rcases List.mem_cons.mp hs with rfl | hs
    · rw [Span.within_of_pos Nat.two_pos]
      omega
    · exact ih (by push_cast; omega) s hs
  | case2 p len h =>
    intro s hs
    rcases List.mem_append.mp hs with hs | hs
    · split at hs
      · rw [List.mem_singleton.mp hs, Span.within_of_pos Nat.one_pos]
        omega
      · cases hs
    · split at hs
      · rw [List.mem_singleton.mp hs, Span.within_of_pos Nat.one_pos]
        omega
      · cases hs

theorem findIe_le (h : (findIe m eid p len).target = some t) : p ≤ t := by
  fun_induction findIe m eid p len with
  | case1 p len hlen r ih =>
    have := ih h
    omega
  | case2 p len hlen =>
    split at h
    · cases h
    split at h
    · cases h
    cases h
    exact Nat.le_refl _

structure Filter where
  filterAction : UInt8
  oui : UInt8 × UInt8 × UInt8
  flags : UInt32
  deriving DecidableEq, Repr

namespace Filter

def frameType (f : Filter) : Bool := f.flags &&& 1 != 0

def frameOui (f : Filter) : Bool := f.flags &&& 2 != 0

end Filter

/-- A management frame, with what stands behind it in the memory. -/
structure MgmtFrame where
  mem : Nat → UInt8
  len : Nat
  control : 2 ≤ len
  short : len < 2 ^ 32

namespace MgmtFrame

def type (fr : MgmtFrame) : UInt8 := fr.mem 0 &&& 0xfc

def isBeacon (fr : MgmtFrame) : Bool := fr.type == 0x80
def isProbeReq (fr : MgmtFrame) : Bool := fr.type == 0x40
def isProbeResp (fr : MgmtFrame) : Bool := fr.type == 0x50
def isAction (fr : MgmtFrame) : Bool := fr.type == 0xd0

def bytes (fr : MgmtFrame) : List UInt8 := read fr.mem 0 fr.len

/-- The offset of `u.beacon.variable` or that of `u.probe_req.variable`; that of a probe response is the first. -/
def variableOffset (fr : MgmtFrame) : Nat := if fr.isBeacon then 36 else if fr.isProbeReq then 24 else 36

end MgmtFrame

structure Check where
  keep : Bool
  reads : List Span

def OuiAt (m : Nat → UInt8) (f : Filter) (t : Nat) : Prop :=
  m (t + 2) = f.oui.1 ∧ m (t + 3) = f.oui.2.1 ∧ m (t + 4) = f.oui.2.2

instance (m : Nat → UInt8) (f : Filter) (t : Nat) : Decidable (OuiAt m f t) := inferInstanceAs (Decidable (_ ∧ _ ∧ _))

/-- The bytes that `&&` looks at. -/
def ouiSpan (m : Nat → UInt8) (f : Filter) (t : Nat) : Span :=
  ⟨t + 2, if m (t + 2) ≠ f.oui.1 then 1 else if m (t + 3) ≠ f.oui.2.1 then 2 else 3⟩

/-- The loop of `goto next` -/
def scanIe (m : Nat → UInt8) (f : Filter) (pos : Nat) (ieLen : Int) : Check :=
  let r := findIe m f.filterAction pos ieLen
  match h : r.target with
  | none => ⟨false, r.reads⟩
  | some t =>
    if f.frameOui then
      if OuiAt m f t then ⟨true, r.reads ++ [ouiSpan m f t]⟩
      else
        let left := ieLen - ((t : Int) - pos) - ((m (t + 1)).toNat + 2)
        if left < 2 then ⟨false, r.reads ++ [ouiSpan m f t]⟩
        else
          let c := scanIe m f (t + ((m (t + 1)).toNat + 2)) left
          { c with reads := r.reads ++ ouiSpan m f t :: c.reads }
    else ⟨true, r.reads⟩
termination_by ieLen.toNat
decreasing_by
  have := findIe_le h
  omega

def checkFilter (fr : MgmtFrame) (f : Filter) : Check :=
  if f.frameType then
    ⟨(fr.isBeacon && f.filterAction == 0x80) || (fr.isProbeReq && f.filterAction == 0x40) ||
      (fr.isProbeResp && f.filterAction == 0x50) || fr.isAction, []⟩
  else scanIe fr.mem f fr.variableOffset ((fr.len : Int) - fr.variableOffset)

/-- The loop over the filters, with its `break`. -/
def checkFilters (fr : MgmtFrame) : List Filter → Check
  | [] => ⟨false, []⟩
  | f :: fs =>
    let c := checkFilter fr f
    if c.keep then c
    else
      let c' := checkFilters fr fs
      { c' with reads := c.reads ++ c'.reads }

/-- An interface, and whether `atbm_skb_copy` has memory for it. -/
structure Iface where
  running : Bool
  filterList : List Filter
  /-- the copies in `special_filter_skb_queue` -/
  queue : List (List UInt8)
  canCopy : Bool
  deriving DecidableEq, Repr

def Iface.queuePackage (i : Iface) (skb : List UInt8) : Iface :=
  if i.running then { i with queue := i.queue ++ [skb] } else i

def Iface.check (fr : MgmtFrame) (i : Iface) : Check :=
  if i.running = false ∨ i.filterList = [] then ⟨false, []⟩ else checkFilters fr i.filterList

def Iface.checked (fr : MgmtFrame) (i : Iface) : Iface :=
  if (i.check fr).keep = true ∧ i.canCopy = true then i.queuePackage fr.bytes else i

/-- `ieee80211_special_check_package`, and what it read of the frame. -/
def specialCheckPackage (fr : MgmtFrame) (ifaces : List Iface) : List Iface × List Span :=
  if fr.isBeacon || fr.isProbeReq then
    (ifaces.map (Iface.checked fr), ⟨0, 2⟩ :: ifaces.flatMap fun i => (i.check fr).reads)
  else (ifaces, [⟨0, 2⟩])

structure IsIe (fr : MgmtFrame) (q : Nat) : Prop where
  visits : Visits fr.mem 2 fr.len fr.variableOffset q
  whole : q + ((fr.mem (q + 1)).toNat + 2) ≤ fr.len

/-- The filter names the type of the frame, or an element has its id and, if it has one, its OUI. -/
def Matches (fr : MgmtFrame) (f : Filter) : Prop :=
  if f.frameType then
    (fr.isBeacon = true ∧ f.filterAction = 0x80) ∨ (fr.isProbeReq = true ∧ f.filterAction = 0x40)
  else
    ∃ q, IsIe fr q ∧ fr.mem q = f.filterAction ∧
      (f.frameOui = true → 3 ≤ (fr.mem (q + 1)).toNat ∧ OuiAt fr.mem f q)

/-- A copy of the frame is queued for the interface exactly when one of its filters matches. -/
def Iface.Right (fr : MgmtFrame) (i : Iface) (queue : List (List UInt8)) : Prop :=
  (i.running = true ∧ i.canCopy = true ∧ (∃ f ∈ i.filterList, Matches fr f) → queue = i.queue ++ [fr.bytes]) ∧
    (¬ (i.running = true ∧ i.canCopy = true ∧ ∃ f ∈ i.filterList, Matches fr f) → queue = i.queue)

/-- The filter has come to its end at this place. -/
def Satisfied (m : Nat → UInt8) (f : Filter) (e p q : Nat) : Prop :=
  Returned m f.filterAction e p q ∧ (f.frameOui = true → OuiAt m f q)

/-- The OUI is held against what stands at this place. -/
def Compared (m : Nat → UInt8) (f : Filter) (e p q : Nat) : Prop :=
  f.frameOui = true ∧ Returned m f.filterAction e p q ∧ ∀ q' < q, ¬ Satisfied m f e p q'

variable {f : Filter}

theorem returned_behind (ht : Returned m eid e p t) (hfirst : ∀ q, Returned m eid e p q → t ≤ q) :
    Returned m eid e p q ↔ q = t ∨ Returned m eid e (t + ((m (t + 1)).toNat + 2)) q := by
  constructor
  · intro hq
    have hv := ht.visits.split hq.visits (hfirst q hq)
    rcases (visits_iff.mp hv).2 with rfl | hv
    · exact .inl rfl
    · exact .inr ⟨hv, hq.whole, hq.id⟩
  · rintro (rfl | hq)
    · exact ht
    · exact ⟨ht.visits.trans (.next ht.visits.left_at hq.visits), hq.whole, hq.id⟩

section

variable (ht : Returned m f.filterAction e p t) (hfirst : ∀ q, Returned m f.filterAction e p q → t ≤ q)

include ht hfirst

theorem satisfied_behind (hoi : f.frameOui = true) (hno : ¬ OuiAt m f t) :
    Satisfied m f e p q ↔ Satisfied m f e (t + ((m (t + 1)).toNat + 2)) q := by
  unfold Satisfied
  rw [returned_behind ht hfirst]
  constructor
  · rintro ⟨rfl | hq, hat⟩
    · exact absurd (hat hoi) hno
    · exact ⟨hq, hat⟩
  · rintro ⟨hq, hat⟩
    exact ⟨.inr hq, hat⟩

theorem compared_behind (hoi : f.frameOui = true) (hno : ¬ OuiAt m f t) :
    Compared m f e p q ↔ q = t ∨ Compared m f e (t + ((m (t + 1)).toNat + 2)) q := by
  have hsat := fun q' => @satisfied_behind m e p q' t f ht hfirst hoi hno
  constructor
  · rintro ⟨-, hq, hbefore⟩
    rcases (returned_behind ht hfirst).mp hq with rfl | hq
    · exact .inl rfl
    · exact .inr ⟨hoi, hq, fun q' hlt h => hbefore q' hlt ((hsat q').mpr h)⟩
  · rintro (rfl | ⟨-, hq, hbefore⟩)
    · refine ⟨hoi, ht, fun q' hlt h => ?_⟩
      have := hfirst q' h.1
      omega
    · exact ⟨hoi, (returned_behind ht hfirst).mpr (.inr hq), fun q' hlt h => hbefore q' hlt ((hsat q').mp h)⟩

theorem compared_last (hoi : f.frameOui = true) (hat : OuiAt m f t) : Compared m f e p q ↔ q = t := by
  constructor
  · rintro ⟨-, hq, hbefore⟩
    have hle := hfirst q hq
    by_contra hne
    exact hbefore t (by omega) ⟨ht, fun _ => hat⟩
  · rintro rfl
    refine ⟨hoi, ht, fun q' hlt h => ?_⟩
    have := hfirst q' h.1
    omega

end

theorem forall_append_singleton {α : Type} {P : α → Prop} {l : List α} {a : α} (hl : ∀ x ∈ l, P x) :
    (∀ x ∈ l ++ [a], P x) ↔ P a := by
  rw [List.forall_mem_append, List.forall_mem_singleton]
  exact and_iff_right hl

theorem scanIe_spec (he : (p : Int) + len = e) :
    ((scanIe m f p len).keep = true ↔ ∃ q, Satisfied m f e p q) ∧
      ((∀ s ∈ (scanIe m f p len).reads, s.Within e) ↔ ∀ q, Compared m f e p q → (ouiSpan m f q).Within e) := by
  fun_induction scanIe m f p len with
  | case1 p len r h =>
    constructor
    · simp only [Bool.false_eq_true, false_iff]
      rintro ⟨q, hq, -⟩
      exact findIe_none he h hq
    · exact iff_of_true (findIe_reads he) fun q hq => absurd hq.2.1 (findIe_none he h)
  | case2 p len r t h hoi hat =>
    obtain ⟨ht, hfirst⟩ := findIe_some he h
    refine ⟨iff_of_true rfl ⟨t, ht, fun _ => hat⟩, ?_⟩
    rw [forall_append_singleton (findIe_reads he)]
    simp only [compared_last ht hfirst hoi hat, forall_eq]
  | case3 p len r t h hoi hat left hleft =>
    obtain ⟨ht, hfirst⟩ := findIe_some he h
    have hend : ∀ q, ¬ Returned m f.filterAction e (t + ((m (t + 1)).toNat + 2)) q := by
      intro q
      exact not_returned_of_lt (by omega)
    constructor
    · simp only [Bool.false_eq_true, false_iff, satisfied_behind ht hfirst hoi hat]
      rintro ⟨q, hq, -⟩
      exact hend q hq
    · rw [forall_append_singleton (findIe_reads he)]
      simp only [compared_behind ht hfirst hoi hat]
      constructor
      · rintro hspan q (rfl | hq)
        · exact hspan
        · exact absurd hq.2.1 (hend q)
      · intro hall
        exact hall t (.inl rfl)
  | case4 p len r t h hoi hat left hleft c ih =>
    obtain ⟨ht, hfirst⟩ := findIe_some he h
    obtain ⟨hkeep, hreads⟩ := ih (by push_cast; omega)
    constructor
    · simp only [satisfied_behind ht hfirst hoi hat]
      exact hkeep
    · simp only [compared_behind ht hfirst hoi hat]
      show (∀ s ∈ r.reads ++ ouiSpan m f t :: c.reads, s.Within e) ↔ _
      rw [List.forall_mem_append, List.forall_mem_cons, hreads]
      constructor
      · rintro ⟨-, hspan, hrest⟩ q (rfl | hq)
        · exact hspan
        · exact hrest q hq
      · intro hall
        exact ⟨findIe_reads he, hall t (.inl rfl), fun q hq => hall q (.inr hq)⟩
  | case5 p len r t h hoi =>
    obtain ⟨ht, hfirst⟩ := findIe_some he h
    have hno : f.frameOui = false := Bool.eq_false_iff.mpr hoi
    constructor
    · exact iff_of_true rfl ⟨t, ht, fun h => absurd (hno.symm.trans h) Bool.false_ne_true⟩
    · exact iff_of_true (findIe_reads he) fun q hq => absurd (hno.symm.trans hq.1) Bool.false_ne_true

def Keeps (fr : MgmtFrame) (f : Filter) : Prop :=
  if f.frameType then
    (fr.isBeacon = true ∧ f.filterAction = 0x80) ∨ (fr.isProbeReq = true ∧ f.filterAction = 0x40)
  else ∃ q, Satisfied fr.mem f fr.len fr.variableOffset q

/-- The OUI of a filter is held against what stands at this place, no filter before it being satisfied. -/
def ComparedIn (fr : MgmtFrame) (fs : List Filter) (f : Filter) (q : Nat) : Prop :=
  ∃ before behind, fs = before ++ f :: behind ∧ (∀ g ∈ before, ¬ Keeps fr g) ∧ f.frameType = false ∧
    Compared fr.mem f fr.len fr.variableOffset q

variable {fr : MgmtFrame} {fs : List Filter}

theorem Matches.keeps (h : Matches fr f) : Keeps fr f := by
  unfold Matches at h
  unfold Keeps
  by_cases htype : f.frameType = true
  · rwa [if_pos htype] at h ⊢
  · rw [if_neg htype] at h ⊢
    obtain ⟨q, hq, hid, hoi⟩ := h
    exact ⟨q, ⟨hq.visits, hq.whole, .inl hid⟩, fun h => (hoi h).2⟩

theorem type_of_kind (hk : fr.isBeacon = true ∨ fr.isProbeReq = true) :
    fr.isProbeResp = false ∧ fr.isAction = false := by
  unfold MgmtFrame.isBeacon MgmtFrame.isProbeReq at hk
  unfold MgmtFrame.isProbeResp MgmtFrame.isAction
  rcases hk with hk | hk <;> rw [beq_iff_eq.mp hk] <;> decide

theorem checkFilter_spec (hk : fr.isBeacon = true ∨ fr.isProbeReq = true) :
    ((checkFilter fr f).keep = true ↔ Keeps fr f) ∧
      ((∀ s ∈ (checkFilter fr f).reads, s.Within fr.len) ↔
        (f.frameType = false → ∀ q, Compared fr.mem f fr.len fr.variableOffset q → (ouiSpan fr.mem f q).Within fr.len)) := by
  obtain ⟨hresp, haction⟩ := type_of_kind hk
  unfold checkFilter Keeps
  by_cases htype : f.frameType = true
  · rw [if_pos htype, if_pos htype]
    constructor
    · simp only [hresp, haction, Bool.false_and, Bool.or_false, Bool.or_eq_true, Bool.and_eq_true, beq_iff_eq]
    · exact iff_of_true nofun fun h => absurd (htype.symm.trans h) (by decide)
  · rw [if_neg htype, if_neg htype]
    obtain ⟨hkeep, hreads⟩ := @scanIe_spec fr.mem fr.len fr.variableOffset
      ((fr.len : Int) - fr.variableOffset) f (by omega)
    refine ⟨hkeep, hreads.trans ⟨fun h _ => h, fun h => h (Bool.eq_false_iff.mpr htype)⟩⟩

theorem comparedIn_cons {g : Filter} :
    ComparedIn fr (g :: fs) f q ↔
      (f = g ∧ f.frameType = false ∧ Compared fr.mem f fr.len fr.variableOffset q) ∨
        (¬ Keeps fr g ∧ ComparedIn fr fs f q) := by
  constructor
  · rintro ⟨before, behind, hsplit, hno, hcmp⟩
    cases before with
    | nil =>
      obtain ⟨rfl, -⟩ := List.cons.inj hsplit
      exact .inl ⟨rfl, hcmp⟩
    | cons g' before =>
      obtain ⟨rfl, hrest⟩ := List.cons.inj hsplit
      obtain ⟨hg, hno⟩ := List.forall_mem_cons.mp hno
      exact .inr ⟨hg, before, behind, hrest, hno, hcmp⟩
  · rintro (⟨rfl, hcmp⟩ | ⟨hg, before, behind, rfl, hno, hcmp⟩)
    · exact ⟨[], fs, rfl, nofun, hcmp⟩
    · exact ⟨g :: before, behind, rfl, List.forall_mem_cons.mpr ⟨hg, hno⟩, hcmp⟩

theorem checkFilters_spec (hk : fr.isBeacon = true ∨ fr.isProbeReq = true) (fs : List Filter) :
    ((checkFilters fr fs).keep = true ↔ ∃ f ∈ fs, Keeps fr f) ∧
      ((∀ s ∈ (checkFilters fr fs).reads, s.Within fr.len) ↔
        ∀ f q, ComparedIn fr fs f q → (ouiSpan fr.mem f q).Within fr.len) := by
  induction fs with
  | nil =>
    constructor
    · exact iff_of_false Bool.false_ne_true nofun
    · refine iff_of_true nofun ?_
      rintro f q ⟨before, behind, hsplit, -⟩
      cases before <;> cases hsplit
  | cons g fs ih =>
    obtain ⟨hkeep, hreads⟩ := @checkFilter_spec g fr hk
    simp only [checkFilters, comparedIn_cons]
    by_cases hg : Keeps fr g
    · rw [if_pos (hkeep.mpr hg)]
      refine ⟨iff_of_true (hkeep.mpr hg) ⟨g, List.mem_cons_self, hg⟩, hreads.trans ?_⟩
      constructor
      · rintro h f q (⟨rfl, htype, hcmp⟩ | ⟨hno, -⟩)
        · exact h htype q hcmp
        · exact absurd hg hno
      · intro h htype q hcmp
        exact h g q (.inl ⟨rfl, htype, hcmp⟩)
    · rw [if_neg (fun h => hg (hkeep.mp h))]
      constructor
      · rw [ih.1]
        constructor
        · rintro ⟨f, hf, hkeeps⟩
          exact ⟨f, List.mem_cons_of_mem _ hf, hkeeps⟩
        · rintro ⟨f, hf, hkeeps⟩
          rcases List.mem_cons.mp hf with rfl | hf
          · exact absurd hkeeps hg
          · exact ⟨f, hf, hkeeps⟩
      · rw [List.forall_mem_append, hreads, ih.2]
        constructor
        · rintro ⟨hfirst, hrest⟩ f q (⟨rfl, htype, hcmp⟩ | ⟨-, hcmp⟩)
          · exact hfirst htype q hcmp
          · exact hrest f q hcmp
        · intro h
          exact ⟨fun htype q hcmp => h g q (.inl ⟨rfl, htype, hcmp⟩), fun f q hcmp => h f q (.inr ⟨hg, hcmp⟩)⟩

/-- A filter is satisfied only where one matches, and the bytes that are held against an OUI are those of the frame. -/
structure Iface.Fits (fr : MgmtFrame) (i : Iface) : Prop where
  right : i.canCopy = true → ∀ f ∈ i.filterList, Keeps fr f → ∃ g ∈ i.filterList, Matches fr g
  inside : ∀ f q, ComparedIn fr i.filterList f q → (ouiSpan fr.mem f q).Within fr.len

variable {i : Iface}

theorem check_spec (hk : fr.isBeacon = true ∨ fr.isProbeReq = true) :
    ((i.check fr).keep = true ↔ i.running = true ∧ ∃ f ∈ i.filterList, Keeps fr f) ∧
      ((∀ s ∈ (i.check fr).reads, s.Within fr.len) ↔
        (i.running = true → ∀ f q, ComparedIn fr i.filterList f q → (ouiSpan fr.mem f q).Within fr.len)) := by
  obtain ⟨hkeep, hreads⟩ := checkFilters_spec hk i.filterList
  unfold Iface.check
  cases hrun : i.running with
  | false =>
    rw [if_pos (.inl rfl)]
    exact ⟨iff_of_false Bool.false_ne_true (fun h => absurd h.1 Bool.false_ne_true), iff_of_true nofun nofun⟩
  | true =>
    by_cases hnil : i.filterList = []
    · rw [if_pos (.inr hnil)]
      rw [hnil] at hkeep hreads ⊢
      refine ⟨hkeep.trans ⟨fun h => ⟨rfl, h⟩, fun h => h.2⟩, hreads.trans ⟨fun h _ => h, fun h => h rfl⟩⟩
    · rw [if_neg (by simp [hnil])]
      refine ⟨hkeep.trans ⟨fun h => ⟨rfl, h⟩, fun h => h.2⟩, hreads.trans ⟨fun h _ => h, fun h => h rfl⟩⟩

theorem queue_checked :
    (i.checked fr).queue =
      if (i.check fr).keep = true ∧ i.canCopy = true ∧ i.running = true then i.queue ++ [fr.bytes] else i.queue := by
  unfold Iface.checked Iface.queuePackage
  by_cases hkeep : (i.check fr).keep = true ∧ i.canCopy = true
  · rw [if_pos hkeep]
    by_cases hrun : i.running = true
    · rw [if_pos hrun, if_pos ⟨hkeep.1, hkeep.2, hrun⟩]
    · rw [if_neg hrun, if_neg fun h => hrun h.2.2]
  · rw [if_neg hkeep, if_neg fun h => hkeep ⟨h.1, h.2.1⟩]

/-- The copy is queued as it should be exactly when no filter is satisfied without one that matches. -/
theorem right_iff (hk : fr.isBeacon = true ∨ fr.isProbeReq = true) :
    i.Right fr (i.checked fr).queue ↔
      (i.running = true → i.canCopy = true → ∀ f ∈ i.filterList, Keeps fr f → ∃ g ∈ i.filterList, Matches fr g) := by
  have hkeep := (@check_spec fr i hk).1
  have hne : i.queue ++ [fr.bytes] ≠ i.queue := by simp
  unfold Iface.Right
  rw [queue_checked]
  constructor
  · rintro ⟨-, hnone⟩ hrun hcopy f hf hkeeps
    by_contra hno
    have hq := hnone fun h => hno h.2.2
    rw [if_pos ⟨hkeep.mpr ⟨hrun, f, hf, hkeeps⟩, hcopy, hrun⟩] at hq
    exact hne hq
  · intro h
    constructor
    · rintro ⟨hrun, hcopy, f, hf, hm⟩
      exact if_pos ⟨hkeep.mpr ⟨hrun, f, hf, hm.keeps⟩, hcopy, hrun⟩
    · intro hno
      refine if_neg ?_
      rintro ⟨hkept, hcopy, hrun⟩
      obtain ⟨-, f, hf, hkeeps⟩ := hkeep.mp hkept
      exact hno ⟨hrun, hcopy, h hrun hcopy f hf hkeeps⟩

theorem specialCheckPackage_iff (hk : fr.isBeacon = true ∨ fr.isProbeReq = true) (ifaces : List Iface) :
    ((∀ i ∈ ifaces, i.Right fr (i.checked fr).queue) ∧
        ∀ s ∈ (specialCheckPackage fr ifaces).2, s.Within fr.len) ↔
      ∀ i ∈ ifaces, i.running = true → i.Fits fr := by
  have hif : (fr.isBeacon || fr.isProbeReq) = true := by simpa using hk
  have hcontrol : (Span.mk 0 2).Within fr.len := (Span.within_of_pos Nat.two_pos).mpr (by have := fr.control; omega)
  unfold specialCheckPackage
  rw [if_pos hif]
  simp only [List.forall_mem_cons, List.forall_mem_flatMap]
  constructor
  · rintro ⟨hright, -, hreads⟩ i hi hrun
    exact ⟨(right_iff hk).mp (hright i hi) hrun, (check_spec hk).2.mp (hreads i hi) hrun⟩
  · intro h
    refine ⟨fun i hi => (right_iff hk).mpr fun hrun => (h i hi hrun).right, hcontrol, fun i hi => ?_⟩
    exact (check_spec hk).2.mpr fun hrun => (h i hi hrun).inside

end SpecialFilter

end AtbmWifi
