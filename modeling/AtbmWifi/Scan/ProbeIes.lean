import AtbmWifi.Lib.Element
import AtbmWifi.Lib.Message

/-!
# The vendor elements of a probe request

On interface 0 the elements of WPS and of P2P are taken out of the probe request before the
firmware gets it: `atbm_remove_wps_p2p_ie` of `scan.c` goes from an element to the next
and moves what stands behind an element of either kind to its place.  It moves as many
bytes as were left with the element, so that it reads beyond the frame by the length of what
it takes out, and of the lengths that the frame is to be cut by it keeps the last of
each kind.  What stays is in order all the same (`remove_content`); the function does what it is
for exactly when it finds nothing to take out (`remove_iff`).
-/

namespace AtbmWifi

namespace ProbeIes

open Memory Wire Tlv

def hdrLen : Nat := 24

/-- The frame, with what stands behind it in the memory.  `skb->len` fits an `int`. -/
structure ProbeReq where
  mem : Nat → UInt8
  len : Nat
  header : hdrLen ≤ len
  short : len < 2 ^ 31

/-- The variables of the loop, and every span of bytes that was read or written. -/
structure IeWalk where
  mem : Nat → UInt8
  ies : Nat
  iesLen : Int
  p2pIeLen : Nat
  wpsIeLen : Nat
  touched : List Span

def wps : List UInt8 := [0x00, 0x50, 0xf2, 0x04]

def p2p : List UInt8 := [0x50, 0x6f, 0x9a, 0x09]

/-- The test of the loop: `ATBM_WLAN_EID_VENDOR_SPECIFIC`, and four bytes behind the length. -/
def vendorAt (oui : List UInt8) (m : Nat → UInt8) (p : Nat) : Bool :=
  m p == 221 && read m (p + 2) 4 == oui

def turn (s : IeWalk) : IeWalk :=
  let ieLen := (s.mem (s.ies + 1)).toNat + 2
  let n := s.iesLen.toNat
  if vendorAt wps s.mem s.ies then
    { s with
      wpsIeLen := ieLen
      mem := move s.mem s.ies (s.ies + ieLen) n
      iesLen := s.iesLen - ieLen
      touched := ⟨s.ies, n⟩ :: ⟨s.ies + ieLen, n⟩ :: ⟨s.ies, 6⟩ :: s.touched }
  else if vendorAt p2p s.mem s.ies then
    { s with
      p2pIeLen := ieLen
      mem := move s.mem s.ies (s.ies + ieLen) n
      iesLen := s.iesLen - ieLen
      touched := ⟨s.ies, n⟩ :: ⟨s.ies + ieLen, n⟩ :: ⟨s.ies, 6⟩ :: s.touched }
  else
    { s with
      ies := s.ies + ieLen
      iesLen := s.iesLen - ieLen
      touched := ⟨s.ies, 6⟩ :: s.touched }

/-- `while (ies_len >= 6)`; none when the fuel runs out. -/
def removeLoop : Nat → IeWalk → Option IeWalk
  | 0, s => if 6 ≤ s.iesLen then none else some s
  | fuel + 1, s => if 6 ≤ s.iesLen then removeLoop fuel (turn s) else some s

/-- `skb_trim` with a length that is computed as an `unsigned int` -/
def skbTrim (len cut : Nat) : Nat :=
  let n := (len + 2 ^ 32 - cut) % 2 ^ 32
  if n < len then n else len

def start (f : ProbeReq) : IeWalk := ⟨f.mem, hdrLen, f.len - hdrLen, 0, 0, []⟩

def atbmRemoveWpsP2pIe (f : ProbeReq) : Option (IeWalk × Nat) :=
  (removeLoop (f.len - hdrLen) (start f)).map fun s =>
    (s, if s.p2pIeLen ≠ 0 ∨ s.wpsIeLen ≠ 0 then skbTrim f.len (s.p2pIeLen + s.wpsIeLen) else f.len)

def isVendor (oui : List UInt8) (x : Element) : Bool := x.id == 221 && x.data.take 4 == oui

def kept (es : List Element) : List Element := es.filter fun x => !(isVendor wps x || isVendor p2p x)

def ProbeReq.body (f : ProbeReq) : List UInt8 := read f.mem hdrLen (f.len - hdrLen)

/-- The frame alone is touched, and of a list of elements the others than WPS and P2P are left. -/
structure Filtered (f : ProbeReq) (r : IeWalk × Nat) : Prop where
  inside : ∀ s ∈ r.1.touched, s.Within f.len
  header : read r.1.mem 0 hdrLen = read f.mem 0 hdrLen
  exact : ∀ es, f.body = encode es →
    r.2 = hdrLen + (encode (kept es)).length ∧ Holds r.1.mem hdrLen (kept es)

/-- Nowhere where the walk comes to, with six bytes left, does an element of WPS or P2P begin. -/
def Clean (f : ProbeReq) : Prop :=
  ∀ p, Visits f.mem 6 f.len hdrLen p → vendorAt wps f.mem p = false ∧ vendorAt p2p f.mem p = false

section Loop

variable {s t : IeWalk} {fuel len : Nat}

theorem turn_iesLen (s : IeWalk) : (turn s).iesLen = s.iesLen - ((s.mem (s.ies + 1)).toNat + 2 : Nat) := by
  unfold turn
  split
  · rfl
  · split <;> rfl

theorem turn_touched (s : IeWalk) : ∀ x ∈ s.touched, x ∈ (turn s).touched := by
  intro x hx
  unfold turn
  split
  · simp [hx]
  · split <;> simp [hx]

theorem removeLoop_ends (hf : s.iesLen.toNat ≤ fuel) : ∃ t, removeLoop fuel s = some t := by
  induction fuel generalizing s with
  | zero =>
    refine ⟨s, ?_⟩
    unfold removeLoop
    rw [if_neg (by omega)]
  | succ fuel ih =>
    unfold removeLoop
    split
    · apply ih
      rw [turn_iesLen]
      omega
    · exact ⟨s, rfl⟩

/-- The rule of the loop: what holds of the state it leaves, and of a state when it holds after the turn. -/
@[elab_as_elim]
theorem removeLoop_rule {motive : IeWalk → Prop} (h : removeLoop fuel s = some t) (hend : t.iesLen < 6 → motive t)
    (hturn : ∀ s k, 6 ≤ s.iesLen → removeLoop k (turn s) = some t → motive (turn s) → motive s) : motive s := by
  induction fuel generalizing s with
  | zero =>
    unfold removeLoop at h
    split at h
    · cases h
    · cases h
      exact hend (by omega)
  | succ fuel ih =>
    unfold removeLoop at h
    split at h
    · rename_i h6
      exact hturn s fuel h6 h (ih h)
    · cases h
      exact hend (by omega)

theorem removeLoop_touched (h : removeLoop fuel s = some t) : ∀ x ∈ s.touched, x ∈ t.touched := by
  refine removeLoop_rule h (fun _ x hx => hx) ?_
  intro s k _ _ ih x hx
  exact ih x (turn_touched s x hx)

theorem turn_skip (hw : vendorAt wps s.mem s.ies = false) (hp : vendorAt p2p s.mem s.ies = false) :
    turn s = { s with
      ies := s.ies + ((s.mem (s.ies + 1)).toNat + 2)
      iesLen := s.iesLen - ((s.mem (s.ies + 1)).toNat + 2 : Nat)
      touched := ⟨s.ies, 6⟩ :: s.touched } := by
  simp only [turn, hw, hp]
  rfl

theorem turn_take (h : vendorAt wps s.mem s.ies = true ∨ vendorAt p2p s.mem s.ies = true) :
    (turn s).ies = s.ies ∧
    (turn s).mem = move s.mem s.ies (s.ies + ((s.mem (s.ies + 1)).toNat + 2)) s.iesLen.toNat ∧
    ⟨s.ies + ((s.mem (s.ies + 1)).toNat + 2), s.iesLen.toNat⟩ ∈ (turn s).touched := by
  unfold turn
  split
  · exact ⟨rfl, rfl, by simp⟩
  · split
    · exact ⟨rfl, rfl, by simp⟩
    · simp_all

theorem removeLoop_clean (h : removeLoop fuel s = some t) (hlen : s.iesLen = (len : Int) - s.ies)
    (hc : ∀ p, Visits s.mem 6 len s.ies p → vendorAt wps s.mem p = false ∧ vendorAt p2p s.mem p = false)
    (ht : ∀ x ∈ s.touched, x.Within len) :
    t.mem = s.mem ∧ t.p2pIeLen = s.p2pIeLen ∧ t.wpsIeLen = s.wpsIeLen ∧ ∀ x ∈ t.touched, x.Within len := by
  revert hlen hc ht
  refine removeLoop_rule h ?_ ?_
  · intro _ _ _ ht
    exact ⟨rfl, rfl, rfl, ht⟩
  · intro s k h6 _ ih hlen hc ht
    have hroom : s.ies + 6 ≤ len := by omega
    have hhere := hc s.ies (.here hroom)
    rw [turn_skip hhere.1 hhere.2] at ih
    have hleft : s.iesLen - ((s.mem (s.ies + 1)).toNat + 2 : Nat) =
        (len : Int) - (s.ies + ((s.mem (s.ies + 1)).toNat + 2) : Nat) := by omega
    have hin : ∀ x ∈ (⟨s.ies, 6⟩ : Span) :: s.touched, x.Within len := by
      intro x hx
      rcases List.mem_cons.mp hx with rfl | hx
      · exact (Span.within_of_pos (by omega)).mpr hroom
      · exact ht x hx
    exact ih hleft (fun p hp => hc p (.next hroom hp)) hin

theorem removeLoop_beyond {p : Nat} (h : removeLoop fuel s = some t) (hlen : s.iesLen = (len : Int) - s.ies)
    (hv : Visits s.mem 6 len s.ies p) (hp : vendorAt wps s.mem p = true ∨ vendorAt p2p s.mem p = true) :
    ∃ x ∈ t.touched, ¬ x.Within len := by
  revert hlen hv hp
  refine removeLoop_rule h ?_ ?_
  · intro hend hlen hv _
    have := hv.left
    omega
  · intro s k h6 hloop ih hlen hv hp
    have hroom := hv.left
    by_cases hhere : vendorAt wps s.mem s.ies = true ∨ vendorAt p2p s.mem s.ies = true
    · refine ⟨_, removeLoop_touched hloop _ (turn_take hhere).2.2, ?_⟩
      rw [Span.within_of_pos (by omega)]
      omega
    · rw [not_or, Bool.not_eq_true, Bool.not_eq_true] at hhere
      cases hv with
      | here => simp_all
      | next _ hv =>
        rw [turn_skip hhere.1 hhere.2] at ih
        refine ih ?_ hv hp
        show s.iesLen - ((s.mem (s.ies + 1)).toNat + 2 : Nat) = (len : Int) - (s.ies + _ : Nat)
        omega

end Loop

section Elements

variable {m : Nat → UInt8} {p : Nat} {x : Element} {es : List Element} {oui : List UInt8}

theorem vendorAt_of_isVendor (h : Holds m p (x :: es)) (ho : oui.length = 4) (hx : isVendor oui x = true) :
    vendorAt oui m p = true := by
  obtain ⟨hid, -, hdata⟩ := h.head
  simp only [isVendor, Bool.and_eq_true, beq_iff_eq] at hx
  obtain ⟨hx, houi⟩ := hx
  have hlong : 4 ≤ x.data.length := by
    have := congrArg List.length houi
    rw [List.length_take] at this
    omega
  have hread : read m (p + 2) 4 = oui := by
    rw [← houi]
    apply List.ext_getElem
    · rw [length_read, List.length_take]
      omega
    · intro i hi _
      rw [length_read] at hi
      rw [getElem_read, List.getElem_take]
      exact hdata i (by omega)
  simp only [vendorAt, Bool.and_eq_true, beq_iff_eq]
  exact ⟨hid.trans hx, hread⟩

theorem vendorAt_holds (h : Holds m p (x :: es)) (ho : oui.length = 4)
    (hx : x.id = 221 → 4 ≤ x.data.length) : vendorAt oui m p = isVendor oui x := by
  obtain ⟨hid, -, hdata⟩ := h.head
  by_cases hv : isVendor oui x = true
  · rw [hv, vendorAt_of_isVendor h ho hv]
  · rw [Bool.not_eq_true] at hv
    rw [hv]
    unfold vendorAt
    unfold isVendor at hv
    by_cases h221 : x.id = 221
    · have hread : read m (p + 2) 4 = x.data.take 4 := by
        apply List.ext_getElem
        · rw [length_read, List.length_take]
          have := hx h221
          omega
        · intro i hi hj
          rw [length_read] at hi
          have := hx h221
          rw [getElem_read, List.getElem_take]
          exact hdata i (by omega)
      rw [hid, hread]
      exact hv
    · rw [hid]
      simp [h221]

theorem size_of_isVendor (ho : oui.length = 4) (hx : isVendor oui x = true) : 6 ≤ x.size := by
  simp only [isVendor, Bool.and_eq_true, beq_iff_eq] at hx
  have := congrArg List.length hx.2
  rw [List.length_take] at this
  unfold Element.size
  omega

end Elements

/-- The length of the last element of the kind, `n` if there is none. -/
def lastSize (oui : List UInt8) (n : Nat) (es : List Element) : Nat :=
  es.foldl (fun n x => if isVendor oui x then x.size else n) n

theorem lastSize_cons (oui : List UInt8) (n : Nat) (x : Element) (es : List Element) :
    lastSize oui n (x :: es) = lastSize oui (if isVendor oui x then x.size else n) es := rfl

theorem not_both (x : Element) (h : isVendor wps x = true) : isVendor p2p x = false := by
  by_contra hp
  simp only [isVendor, Bool.not_eq_false, Bool.and_eq_true, beq_iff_eq] at h hp
  have := h.2.symm.trans hp.2
  revert this
  decide

theorem lastSize_le (es : List Element) (n k : Nat) :
    lastSize wps n es + lastSize p2p k es ≤ n + k + (encode es).length := by
  induction es generalizing n k with
  | nil => exact Nat.le_refl _
  | cons x es ih =>
    rw [lastSize_cons, lastSize_cons, length_encode_cons]
    have hrest := ih (if isVendor wps x then x.size else n) (if isVendor p2p x then x.size else k)
    by_cases hw : isVendor wps x = true
    · rw [if_pos hw, not_both x hw] at hrest ⊢
      simp only [Bool.false_eq_true, if_false] at hrest ⊢
      omega
    · rw [if_neg hw] at hrest ⊢
      by_cases hp : isVendor p2p x = true
      · rw [if_pos hp] at hrest ⊢
        omega
      · rw [if_neg hp] at hrest ⊢
        omega

theorem lastSize_of_none {oui : List UInt8} {es : List Element} (h : ∀ x ∈ es, isVendor oui x = false) (n : Nat) :
    lastSize oui n es = n := by
  induction es with
  | nil => rfl
  | cons x es ih =>
    rw [lastSize_cons, h x List.mem_cons_self]
    exact ih fun y hy => h y (List.mem_cons_of_mem _ hy)

theorem turn_wps (s : IeWalk) : (turn s).wpsIeLen =
    if vendorAt wps s.mem s.ies then (s.mem (s.ies + 1)).toNat + 2 else s.wpsIeLen := by
  unfold turn
  split
  · rfl
  · split <;> rfl

theorem turn_p2p (s : IeWalk) (h : vendorAt wps s.mem s.ies = true → vendorAt p2p s.mem s.ies = false) :
    (turn s).p2pIeLen = if vendorAt p2p s.mem s.ies then (s.mem (s.ies + 1)).toNat + 2 else s.p2pIeLen := by
  unfold turn
  split
  · rename_i hw
    rw [h hw]
    rfl
  · split <;> rfl

theorem kept_cons_of_vendor {x : Element} (h : isVendor wps x = true ∨ isVendor p2p x = true) (es : List Element) :
    kept (x :: es) = kept es := by
  unfold kept
  rw [List.filter_cons_of_neg]
  rcases h with h | h
  · simp [h]
  · simp [h]

theorem kept_cons_of_other {x : Element} (hw : isVendor wps x = false) (hp : isVendor p2p x = false)
    (es : List Element) : kept (x :: es) = x :: kept es := by
  unfold kept
  rw [List.filter_cons_of_pos]
  rw [hw, hp]
  rfl

theorem kept_of_none {es : List Element} (hw : ∀ x ∈ es, isVendor wps x = false)
    (hp : ∀ x ∈ es, isVendor p2p x = false) : kept es = es := by
  unfold kept
  rw [List.filter_eq_self]
  intro x hx
  rw [hw x hx, hp x hx]
  rfl

/-- The walk over a list of elements: `done` stand before it, `es` are ahead. -/
structure IeWalk.At (s : IeWalk) (done es : List Element) : Prop where
  left : s.iesLen = (encode es).length
  here : s.ies = hdrLen + (encode done).length
  behind : Holds s.mem hdrLen done
  ahead : Holds s.mem s.ies es
  long : ∀ x ∈ es, x.id = 221 → 4 ≤ x.data.length

section Walk

variable {s t : IeWalk} {done es : List Element} {x : Element}

theorem IeWalk.At.vendor {oui : List UInt8} (h : s.At done (x :: es)) (ho : oui.length = 4) :
    vendorAt oui s.mem s.ies = isVendor oui x :=
  vendorAt_holds h.ahead ho (h.long x List.mem_cons_self)

theorem IeWalk.At.size (h : s.At done (x :: es)) : (s.mem (s.ies + 1)).toNat + 2 = x.size := by
  rw [h.ahead.head.2.1]
  rfl

theorem IeWalk.At.turn_left (h : s.At done (x :: es)) : (turn s).iesLen = (encode es).length := by
  have hleft := h.left
  rw [length_encode_cons] at hleft
  rw [turn_iesLen, h.size]
  omega

theorem IeWalk.At.turn_sizes (h : s.At done (x :: es)) :
    (turn s).wpsIeLen = (if isVendor wps x then x.size else s.wpsIeLen) ∧
      (turn s).p2pIeLen = (if isVendor p2p x then x.size else s.p2pIeLen) := by
  constructor
  · rw [turn_wps, h.vendor rfl, h.size]
  · rw [turn_p2p s (by rw [h.vendor rfl, h.vendor rfl]; exact not_both x), h.vendor rfl, h.size]

theorem IeWalk.At.tail_long (h : s.At done (x :: es)) : ∀ y ∈ es, y.id = 221 → 4 ≤ y.data.length :=
  fun y hy => h.long y (List.mem_cons_of_mem x hy)

theorem IeWalk.At.taken (h : s.At done (x :: es)) (hv : isVendor wps x = true ∨ isVendor p2p x = true) :
    (turn s).At done es ∧ read (turn s).mem 0 hdrLen = read s.mem 0 hdrLen := by
  have hhere := h.here
  have hleft := h.left
  rw [length_encode_cons] at hleft
  obtain ⟨hstay, hmem, -⟩ := turn_take (s := s) (by rwa [h.vendor rfl, h.vendor rfl])
  rw [h.size] at hmem
  have hbehind : Holds (turn s).mem hdrLen done := by
    unfold Holds
    rw [hmem, read_move_before (Nat.le_of_eq hhere.symm)]
    exact h.behind
  have hahead : Holds (turn s).mem (turn s).ies es := by
    unfold Holds
    rw [hmem, hstay, read_move (by omega)]
    exact (holds_cons.mp h.ahead).2
  refine ⟨⟨h.turn_left, hstay.trans hhere, hbehind, hahead, h.tail_long⟩, ?_⟩
  rw [hmem, read_move_before (by omega)]

theorem IeWalk.At.skipped (h : s.At done (x :: es)) (hw : isVendor wps x = false) (hp : isVendor p2p x = false) :
    (turn s).At (done ++ [x]) es ∧ read (turn s).mem 0 hdrLen = read s.mem 0 hdrLen := by
  have hhere := h.here
  have hskip := turn_skip ((h.vendor rfl).trans hw) ((h.vendor rfl).trans hp)
  have hmem : (turn s).mem = s.mem := by rw [hskip]
  have hgo : (turn s).ies = s.ies + x.size := by rw [hskip, h.size]
  have hone : (encode (done ++ [x])).length = (encode done).length + x.size := by
    rw [encode_append, List.length_append, length_encode_cons]
    rfl
  have hbehind : Holds (turn s).mem hdrLen (done ++ [x]) := by
    rw [hmem, holds_append, ← hhere, holds_cons]
    exact ⟨h.behind, (holds_cons.mp h.ahead).1, holds_nil⟩
  have hahead : Holds (turn s).mem (turn s).ies es := by
    rw [hmem, hgo]
    exact (holds_cons.mp h.ahead).2
  refine ⟨⟨h.turn_left, ?_, hbehind, hahead, h.tail_long⟩, by rw [hmem]⟩
  rw [hone]
  omega

theorem IeWalk.At.none_left (h : s.At done es) (h6 : s.iesLen < 6) (oui : List UInt8) (ho : oui.length = 4) :
    ∀ x ∈ es, isVendor oui x = false := by
  intro x hx
  by_contra hv
  rw [Bool.not_eq_false] at hv
  have := size_of_isVendor ho hv
  have := size_le_encode hx
  have := h.left
  omega

theorem removeLoop_kept {fuel : Nat} (h : removeLoop fuel s = some t) (done es : List Element) (hs : s.At done es) :
    Holds t.mem hdrLen (done ++ kept es) ∧ t.wpsIeLen = lastSize wps s.wpsIeLen es ∧
      t.p2pIeLen = lastSize p2p s.p2pIeLen es ∧ read t.mem 0 hdrLen = read s.mem 0 hdrLen := by
  revert done es
  refine removeLoop_rule h ?_ ?_
  · intro h6 done es hs
    have hw := hs.none_left h6 wps rfl
    have hp := hs.none_left h6 p2p rfl
    rw [kept_of_none hw hp, lastSize_of_none hw, lastSize_of_none hp]
    refine ⟨?_, rfl, rfl, rfl⟩
    rw [holds_append, ← hs.here]
    exact ⟨hs.behind, hs.ahead⟩
  · intro s k h6 _ ih done es hs
    cases es with
    | nil =>
      have hleft : s.iesLen = 0 := hs.left
      omega
    | cons x es =>
      rw [lastSize_cons, lastSize_cons, ← hs.turn_sizes.1, ← hs.turn_sizes.2]
      by_cases hv : isVendor wps x = true ∨ isVendor p2p x = true
      · obtain ⟨hat, hhdr⟩ := hs.taken hv
        rw [kept_cons_of_vendor hv, ← hhdr]
        exact ih done es hat
      · rw [not_or, Bool.not_eq_true, Bool.not_eq_true] at hv
        obtain ⟨hat, hhdr⟩ := hs.skipped hv.1 hv.2
        rw [kept_cons_of_other hv.1 hv.2, List.append_cons, ← hhdr]
        exact ih (done ++ [x]) es hat

end Walk

/-- **The content is filtered, the length is not**: the elements that are to stay stand in
order behind the header, and the frame is cut by the last element of each kind. -/
theorem remove_content (f : ProbeReq) {es : List Element} (hb : f.body = encode es)
    (hlong : ∀ x ∈ es, x.id = 221 → 4 ≤ x.data.length) :
    ∃ t n, atbmRemoveWpsP2pIe f = some (t, n) ∧ Holds t.mem hdrLen (kept es) ∧
      read t.mem 0 hdrLen = read f.mem 0 hdrLen ∧ n + lastSize wps 0 es + lastSize p2p 0 es = f.len := by
  have hhdr := f.header
  have hshort := f.short
  have hsize : (encode es).length = f.len - hdrLen := by
    rw [← hb]
    exact length_read _ _ _
  have hes : Holds f.mem hdrLen es := by
    unfold Holds
    rw [hsize]
    exact hb
  have hleft : (start f).iesLen = (encode es).length := by
    show (f.len : Int) - hdrLen = (encode es).length
    omega
  obtain ⟨t, ht⟩ : ∃ t, removeLoop (f.len - hdrLen) (start f) = some t := by
    apply removeLoop_ends
    rw [hleft]
    omega
  have hat : (start f).At [] es := ⟨hleft, rfl, holds_nil, hes, hlong⟩
  obtain ⟨hin, hw, hp, hmem⟩ := removeLoop_kept ht [] es hat
  refine ⟨t, _, by rw [atbmRemoveWpsP2pIe, ht, Option.map_some], hin, hmem, ?_⟩
  have hle := lastSize_le es 0 0
  have hw0 : t.wpsIeLen = lastSize wps 0 es := hw
  have hp0 : t.p2pIeLen = lastSize p2p 0 es := hp
  rw [hw0, hp0]
  unfold skbTrim
  split
  · rw [if_pos]
    · omega
    · omega
  · omega

/-- **Nothing is taken out**, in a frame that the walk finds no such element in: it has none. -/
theorem kept_of_clean {f : ProbeReq} (hc : Clean f) {es : List Element} (hb : f.body = encode es) : kept es = es := by
  have hsize : (encode es).length = f.len - hdrLen := by
    rw [← hb]
    exact length_read _ _ _
  have hholds : Holds f.mem hdrLen es := by
    unfold Holds
    rw [hsize]
    exact hb
  have hhdr := f.header
  unfold kept
  rw [List.filter_eq_self]
  intro x hx
  obtain ⟨as, bs, rfl⟩ := List.append_of_mem hx
  have hat : Holds f.mem (hdrLen + (encode as).length) (x :: bs) := (holds_append.mp hholds).2
  rw [encode_append, List.length_append, length_encode_cons] at hsize
  have hnone : ∀ oui : List UInt8, oui.length = 4 → vendorAt oui f.mem (hdrLen + (encode as).length) = false ∨
      x.size < 6 → isVendor oui x = false := by
    intro oui ho hor
    by_contra hv
    rw [Bool.not_eq_false] at hv
    rcases hor with hor | hor
    · rw [vendorAt_of_isVendor hat ho hv] at hor
      cases hor
    · have := size_of_isVendor ho hv
      omega
  have hvisit : 6 ≤ x.size → Visits f.mem 6 f.len hdrLen (hdrLen + (encode as).length) := by
    intro h6
    exact Visits.of_encode hholds (by omega)
  by_cases h6 : 6 ≤ x.size
  · obtain ⟨hw, hp⟩ := hc _ (hvisit h6)
    rw [hnone wps rfl (.inl hw), hnone p2p rfl (.inl hp)]
    rfl
  · rw [hnone wps rfl (.inr (by omega)), hnone p2p rfl (.inr (by omega))]
    rfl

/-- **The vendor elements of a probe request are filtered**, without a byte beyond the frame,
exactly if the walk finds none. -/
theorem remove_iff (f : ProbeReq) : (∃ r, atbmRemoveWpsP2pIe f = some r ∧ Filtered f r) ↔ Clean f := by
  have hhdr := f.header
  have hstart : (start f).iesLen = (f.len : Int) - (start f).ies := rfl
  obtain ⟨t, ht⟩ : ∃ t, removeLoop (f.len - hdrLen) (start f) = some t := by
    apply removeLoop_ends
    show ((f.len : Int) - hdrLen).toNat ≤ f.len - hdrLen
    omega
  constructor
  · rintro ⟨r, hr, hf⟩ p hp
    unfold atbmRemoveWpsP2pIe at hr
    rw [ht] at hr
    cases hr
    by_contra hv
    have hor : vendorAt wps f.mem p = true ∨ vendorAt p2p f.mem p = true := by
      rw [not_and_or, Bool.not_eq_false, Bool.not_eq_false] at hv
      exact hv
    obtain ⟨x, hx, hout⟩ := removeLoop_beyond ht hstart hp hor
    exact hout (hf.inside x hx)
  · intro hc
    obtain ⟨hmem, hp2p, hwps, hin⟩ := removeLoop_clean ht hstart hc (by
      intro x hx
      cases hx)
    have hp0 : t.p2pIeLen = 0 := hp2p
    have hw0 : t.wpsIeLen = 0 := hwps
    refine ⟨(t, f.len), ?_, hin, ?_, ?_⟩
    · unfold atbmRemoveWpsP2pIe
      rw [ht, Option.map_some, hp0, hw0]
      rfl
    · show read t.mem 0 hdrLen = read f.mem 0 hdrLen
      rw [hmem]
      rfl
    · intro es hes
      have hsize : (encode es).length = f.len - hdrLen := by
        rw [← hes]
        exact length_read _ _ _
      rw [kept_of_clean hc hes]
      refine ⟨?_, ?_⟩
      · show f.len = hdrLen + (encode es).length
        omega
      · show read t.mem hdrLen (encode es).length = encode es
        rw [hmem, hsize]
        exact hes

def twoWps : ProbeReq where
  mem x :=
    (List.replicate 24 (0 : UInt8) ++ [0xdd, 4, 0x00, 0x50, 0xf2, 0x04, 0xdd, 4, 0x00, 0x50, 0xf2, 0x04]).getD x 0
  len := 36
  header := by decide
  short := by decide

theorem remove_content_twoWps :
    let es : List Element := [⟨0xdd, wps, by decide⟩, ⟨0xdd, wps, by decide⟩]
    ∃ t n, atbmRemoveWpsP2pIe twoWps = some (t, n) ∧ Holds t.mem hdrLen (kept es) ∧
      read t.mem 0 hdrLen = read twoWps.mem 0 hdrLen ∧ n + lastSize wps 0 es + lastSize p2p 0 es = twoWps.len :=
  remove_content twoWps (by decide +kernel) (by decide)

theorem twoWps_len : (atbmRemoveWpsP2pIe twoWps).map Prod.snd = some 30 := by decide +kernel

/-- Six bytes from beyond the frame are left in it. -/
theorem remove_cuts_one : ¬ ∃ r, atbmRemoveWpsP2pIe twoWps = some r ∧ Filtered twoWps r := by
  rintro ⟨r, hr, hf⟩
  have hlen : r.2 = 30 := by
    have h := twoWps_len
    rw [hr] at h
    exact Option.some_inj.mp h
  have hbody : twoWps.body = encode [⟨0xdd, wps, by decide⟩, ⟨0xdd, wps, by decide⟩] := by decide +kernel
  have hexact := (hf.exact _ hbody).1
  rw [hlen] at hexact
  revert hexact
  decide +kernel

end ProbeIes

end AtbmWifi
