import AtbmWifi.P2p.Intent

/-!
# The rewriting of the intent is confined

Both loops are read as `Turns`: `ieTurn` and `attrTurn` each do what `IeStep` and `AttrStep` say where the frame fits,
and fault, hang or find the wrong thing where it does not.
-/

namespace AtbmWifi

open Memory Relation

namespace ActionBody

variable {f : ActionBody} {log : Bool} {ie off a b n : Nat} {intent : UInt8} {r : Option (Nat × Nat)}

variable {i l fuel : Nat}

theorem byte_eq (h : i < f.len) : f.byte i = some (f.mem i) := if_pos h

theorem byte_none (h : f.len ≤ i) : f.byte i = none := if_neg (Nat.not_lt.mpr h)

theorem isP2pOui_other {eid : UInt8} (h : eid ≠ vendorSpecificIe) : f.isP2pOui eid i = some false := if_neg h

theorem isP2pOui_vendor (h : i + 4 ≤ f.len) : f.isP2pOui vendorSpecificIe i = some (read f.mem i 4 == p2pOui) := by
  unfold isP2pOui bytes
  rw [if_pos rfl, if_pos h]
  rfl

theorem isP2pOui_none (h : ¬ i + 4 ≤ f.len) : f.isP2pOui vendorSpecificIe i = none := by
  unfold isP2pOui bytes
  rw [if_pos rfl, if_neg h]
  rfl

theorem isP2pOui_at (hv : f.mem a = vendorSpecificIe → a + 6 ≤ f.len) :
    f.isP2pOui (f.mem a) (a + 2) = some (decide (f.P2pAt a)) := by
  by_cases h : f.mem a = vendorSpecificIe
  · rw [h, isP2pOui_vendor (hv h)]
    congr 1
    rw [Bool.eq_iff_iff, beq_iff_eq, decide_eq_true_iff]
    exact ⟨fun hoctets => ⟨h, hoctets⟩, fun hp => hp.2⟩
  · rw [isP2pOui_other h]
    congr 1
    exact (decide_eq_false fun hp => h hp.1).symm

theorem p2pGetLe16_lt (lo hi : UInt8) : p2pGetLe16 lo hi < 2 ^ 16 := by
  have hlo := lo.toNat_lt
  have hhi := hi.toNat_lt
  unfold p2pGetLe16
  omega

/-- What may be done with the attribute that was found. -/
def AttrGood (f : ActionBody) (log : Bool) (ie : Nat) : Option (Nat × Nat) → Prop
  | none => True
  | some (p, l) => l = 0 ∨ l = 4 ∧ ∃ off, p = ie + off ∧ off + 4 ≤ f.elemSize ie ∧ p + 4 ≤ f.len ∧
      (log = true → p + 5 ≤ f.len) ∧ f.AttrAt ie off

theorem attrTurn_in (hoff : off < f.elemSize ie) (hin : ie + off + 3 ≤ f.len) :
    f.attrTurn ie (f.elemSize ie) p2pAttrGoIntent off =
      if f.mem (ie + off) = p2pAttrGoIntent then some (.inr (some (ie + off, (f.attrData (ie + off) + 3) % 2 ^ 16)))
      else some (.inl (off + (f.attrData (ie + off) + 3) % 2 ^ 16)) := by
  unfold attrTurn
  rw [if_pos hoff, byte_eq (by omega), byte_eq (by omega), byte_eq (by omega)]
  rfl

theorem attrTurn_outside (hoff : off < f.elemSize ie) (hin : ¬ ie + off + 3 ≤ f.len) :
    f.attrTurn ie (f.elemSize ie) p2pAttrGoIntent off = none := by
  unfold attrTurn
  rw [if_pos hoff, byte_none (show f.len ≤ ie + off + 2 by omega)]
  cases f.byte (ie + off) with
  | none => rfl
  | some _ =>
    cases f.byte (ie + off + 1) with
    | none => rfl
    | some _ => rfl

theorem attrTurn_end (hoff : ¬ off < f.elemSize ie) :
    f.attrTurn ie (f.elemSize ie) p2pAttrGoIntent off = some (.inr none) :=
  if_neg hoff

theorem attrTurn_fits (h : f.AttrFits log ie off) :
    (∃ r, f.attrTurn ie (f.elemSize ie) p2pAttrGoIntent off = some (.inr r) ∧ f.AttrGood log ie r ∧
      ∀ t, ¬ f.AttrStep ie off t) ∨
    ∃ t, f.attrTurn ie (f.elemSize ie) p2pAttrGoIntent off = some (.inl t) ∧ f.elemSize ie - t < f.elemSize ie - off ∧
      ∀ u, f.AttrStep ie off u ↔ u = t := by
  by_cases hoff : off < f.elemSize ie
  · obtain ⟨hin, hother, hgo⟩ := h hoff
    rw [attrTurn_in hoff hin]
    by_cases hid : f.mem (ie + off) = p2pAttrGoIntent
    · rw [if_pos hid]
      refine .inl ⟨_, rfl, ?_, fun t ht => ht.2.1 hid⟩
      rcases hgo hid with hzero | ⟨hone, helem, hframe, hlog, hat⟩
      · exact .inl hzero
      · exact .inr ⟨by omega, off, rfl, helem, hframe, hlog, hat⟩
    · have hpos := hother hid
      rw [if_neg hid]
      refine .inr ⟨_, rfl, by omega, fun u => ⟨fun hu => hu.2.2, fun hu => ⟨hoff, hid, hu⟩⟩⟩
  · exact .inl ⟨none, attrTurn_end hoff, trivial, fun t ht => hoff ht.1⟩

theorem attrTurn_breaks (h : ¬ f.AttrFits log ie off) :
    f.attrTurn ie (f.elemSize ie) p2pAttrGoIntent off = none ∨
    f.attrTurn ie (f.elemSize ie) p2pAttrGoIntent off = some (.inl off) ∨
    ∃ r, f.attrTurn ie (f.elemSize ie) p2pAttrGoIntent off = some (.inr r) ∧ ¬ f.AttrGood log ie r := by
  by_cases hoff : off < f.elemSize ie
  · by_cases hin : ie + off + 3 ≤ f.len
    · rw [attrTurn_in hoff hin]
      by_cases hid : f.mem (ie + off) = p2pAttrGoIntent
      · rw [if_pos hid]
        refine .inr (.inr ⟨_, rfl, fun hgood => h fun _ => ⟨hin, fun hne => absurd hid hne, fun _ => ?_⟩⟩)
        rcases hgood with hzero | ⟨hfour, off', hp, helem, hframe, hlog, hat⟩
        · exact .inl hzero
        · obtain rfl : off = off' := by omega
          have hlt : f.attrData (ie + off) < 2 ^ 16 := p2pGetLe16_lt _ _
          exact .inr ⟨by omega, helem, hframe, hlog, hat⟩
      · rw [if_neg hid]
        by_cases hzero : (f.attrData (ie + off) + 3) % 2 ^ 16 = 0
        · rw [hzero]
          exact .inr (.inl rfl)
        · exact absurd (fun _ => ⟨hin, fun _ => hzero, fun hgo => absurd hgo hid⟩) h
    · exact .inl (attrTurn_outside hoff hin)
  · exact absurd (fun hlt => absurd hlt hoff) h

theorem attrLoop_iff (f : ActionBody) (log : Bool) (ie : Nat) :
    (∃ fuel r, Turns.run (f.attrTurn ie (f.elemSize ie) p2pAttrGoIntent) fuel 6 = some r ∧ f.AttrGood log ie r) ↔
      ∀ off, ReflTransGen (f.AttrStep ie) 6 off → f.AttrFits log ie off :=
  Turns.run_iff (fun off => f.elemSize ie - off) (fun _ => attrTurn_fits) (fun _ => attrTurn_breaks) 6

def finishIntent (f : ActionBody) (log : Bool) (intent : UInt8) (attr : Option (Nat × Nat)) : Option IntentResult :=
  (f.copyContent 1 attr).bind (f.writeIntent log intent)

/-- Where the loop over the attributes can leave a GO Intent. -/
def AttrFound (f : ActionBody) (ie : Nat) (attr : Option (Nat × Nat)) : Prop :=
  ∀ p l, attr = some (p, l) → ∃ off, p = ie + off ∧ f.mem (ie + off) = p2pAttrGoIntent ∧
    l = (f.attrData (ie + off) + 3) % 2 ^ 16

theorem attrTurn_found (h : f.attrTurn ie (f.elemSize ie) p2pAttrGoIntent off = some (.inr r)) : f.AttrFound ie r := by
  rintro p l rfl
  by_cases hoff : off < f.elemSize ie
  · by_cases hin : ie + off + 3 ≤ f.len
    · rw [attrTurn_in hoff hin] at h
      by_cases hid : f.mem (ie + off) = p2pAttrGoIntent
      · rw [if_pos hid] at h
        simp only [Option.some.injEq, Sum.inr.injEq, Prod.mk.injEq] at h
        exact ⟨off, h.1.symm, hid, h.2.symm⟩
      · rw [if_neg hid] at h
        simp at h
    · rw [attrTurn_outside hoff hin] at h
      cases h
  · rw [attrTurn_end hoff] at h
    simp at h

theorem writeIntent_others {content : Option Nat} {r : IntentResult} (h : f.writeIntent log intent content = some r) :
    (∀ x, r.written ≠ some x → r.mem x = f.mem x) ∧ r.written = content := by
  unfold writeIntent at h
  cases content with
  | none =>
    obtain rfl := Option.some.inj h
    exact ⟨fun _ _ => rfl, rfl⟩
  | some p =>
    obtain ⟨v, -, h⟩ := Option.bind_eq_some_iff.mp h
    obtain ⟨w, -, h⟩ := Option.bind_eq_some_iff.mp h
    obtain rfl := Option.some.inj h
    refine ⟨fun x hx => ?_, rfl⟩
    exact setAt_of_ne (fun hxp => hx (by rw [hxp])) _ _

theorem printed_isSome : (f.printed log i).isSome ↔ (log = true → i < f.len) := by
  unfold printed byte
  cases log <;> simp

theorem writeIntent_isSome (f : ActionBody) (log : Bool) (intent : UInt8) (p : Nat) :
    (f.writeIntent log intent (some p)).isSome ↔ p < f.len ∧ (log = true → p + 1 < f.len) := by
  rw [← printed_isSome]
  unfold writeIntent
  dsimp only
  by_cases hp : p < f.len
  · rw [byte_eq hp]
    cases f.printed log (p + 1) <;> simp [hp]
  · rw [byte_none (Nat.not_lt.mp hp)]
    simp [hp]

theorem contentLen_small (h : l = 3 ∨ l = 4) : contentLen l = l - 3 := by
  unfold contentLen
  omega

theorem contentLen_large (h0 : l ≠ 0) (hlt : l < 2 ^ 16) (h : ¬ (l = 3 ∨ l = 4)) : 1 < contentLen l := by
  unfold contentLen
  omega

theorem bytes_length {n : Nat} {l : List UInt8} (h : f.bytes i n = some l) : i + n ≤ f.len ∧ l.length = n := by
  unfold bytes at h
  split at h
  · obtain rfl := Option.some.inj h
    exact ⟨‹_›, length_read _ _ _⟩
  · cases h

theorem copyContent_eq {p : Nat} (hl : l ≠ 0) (hlt : l < 2 ^ 16) :
    f.copyContent 1 (some (p, l)) = if (l = 3 ∨ l = 4) ∧ p + l ≤ f.len then some (some (p + 3)) else none := by
  have hcopy : f.copyContent 1 (some (p, l)) = (f.bytes (p + 3) (contentLen l)).bind fun content =>
      if content.length ≤ 1 then some (some (p + 3)) else none := if_neg hl
  rw [hcopy]
  by_cases hsmall : l = 3 ∨ l = 4
  · rw [contentLen_small hsmall]
    by_cases hin : p + l ≤ f.len
    · have hbytes : f.bytes (p + 3) (l - 3) = some (read f.mem (p + 3) (l - 3)) := if_pos (by omega)
      rw [hbytes, if_pos ⟨hsmall, hin⟩]
      exact if_pos (by rw [length_read]; omega)
    · have hbytes : f.bytes (p + 3) (l - 3) = none := if_neg (by omega)
      rw [hbytes, if_neg fun h => hin h.2]
      rfl
  · have hlarge := contentLen_large hl hlt hsmall
    rw [if_neg fun h => hsmall h.1]
    cases hbytes : f.bytes (p + 3) (contentLen l) with
    | none => rfl
    | some content =>
      have hlen := (bytes_length hbytes).2
      exact if_neg (by omega)

/-- **The write is confined exactly where the attribute is good.** -/
theorem finishIntent_iff {attr : Option (Nat × Nat)} (log : Bool) (intent : UInt8) (hfound : f.AttrFound ie attr) :
    (∃ r, f.finishIntent log intent attr = some r ∧ ∀ x, r.written = some x → f.IntentOctetOf ie x) ↔
      f.AttrGood log ie attr := by
  unfold finishIntent
  cases attr with
  | none =>
    constructor
    · exact fun _ => trivial
    · exact fun _ => ⟨⟨1, f.mem, none⟩, rfl, nofun⟩
  | some attr =>
    obtain ⟨p, l⟩ := attr
    obtain ⟨off, rfl, hid, hl⟩ := hfound p l rfl
    have hdata : f.attrData (ie + off) < 2 ^ 16 := p2pGetLe16_lt _ _
    have hlt : l < 2 ^ 16 := by omega
    by_cases hzero : l = 0
    · have hcopy : f.copyContent 1 (some (ie + off, l)) = some none := if_pos hzero
      rw [hcopy]
      constructor
      · exact fun _ => .inl hzero
      · exact fun _ => ⟨⟨1, f.mem, none⟩, rfl, nofun⟩
    · rw [copyContent_eq hzero hlt]
      constructor
      · rintro ⟨r, hr, hwritten⟩
        by_cases hc : (l = 3 ∨ l = 4) ∧ ie + off + l ≤ f.len
        · rw [if_pos hc] at hr
          have hwrite : f.writeIntent log intent (some (ie + off + 3)) = some r := hr
          obtain ⟨hlen, hlog⟩ := (writeIntent_isSome f log intent _).mp (Option.isSome_of_eq_some hwrite)
          obtain ⟨off', hat, -, hpos, helem, hx⟩ := hwritten _ (writeIntent_others hwrite).2
          obtain rfl : off = off' := by omega
          have hfour : l = 4 := by omega
          exact .inr ⟨hfour, off, rfl, by omega, by omega, fun h => hlog h, hat⟩
        · rw [if_neg hc] at hr
          cases hr
      · rintro (h | ⟨hfour, off', hoff, helem, hframe, hlog, hat⟩)
        · exact absurd h hzero
        · obtain rfl : off = off' := by omega
          have hc : (l = 3 ∨ l = 4) ∧ ie + off + l ≤ f.len := ⟨.inr hfour, by omega⟩
          have hone : f.attrData (ie + off) = 1 := by omega
          rw [if_pos hc]
          have hwrite := (writeIntent_isSome f log intent (ie + off + 3)).mpr
            ⟨by omega, fun h => Nat.lt_of_succ_le (hlog h)⟩
          obtain ⟨r, hr⟩ := Option.isSome_iff_exists.mp hwrite
          refine ⟨r, hr, fun x hx => ?_⟩
          rw [(writeIntent_others hr).2] at hx
          obtain rfl := Option.some.inj hx
          exact ⟨off, hat, hid, by omega, by omega, rfl⟩

theorem iesLen_eq (h : publicActionIeOffset ≤ f.len) : f.iesLen = f.len - publicActionIeOffset := by
  have hlt := f.lt
  unfold iesLen publicActionIeOffset at *
  omega

theorem inLen_neg (h : publicActionIeOffset ≤ f.len) : f.inLen < 0 ↔ ¬ f.len - publicActionIeOffset < 2 ^ 31 := by
  have hlt := f.lt
  unfold inLen
  rw [iesLen_eq h]
  split
  · next hs => exact ⟨fun hneg => absurd hneg (Int.not_lt.mpr (Int.natCast_nonneg _)), fun hn => absurd hs hn⟩
  · next hs => exact ⟨fun _ => hs, fun _ => by omega⟩

/-- What is wanted of the element that was found. -/
def IeGood (f : ActionBody) (log : Bool) : Option (Nat × Nat) → Prop
  | none => True
  | some (ie, n) => n = f.elemSize ie ∧ ∀ off, ReflTransGen (f.AttrStep ie) 6 off → f.AttrFits log ie off

theorem ieTurn_end (h : publicActionIeOffset ≤ f.len) (ha : ¬ a < f.len - publicActionIeOffset) :
    f.ieTurn a = some (.inr none) := by
  unfold ieTurn
  rw [iesLen_eq h]
  exact if_neg ha

theorem ieTurn_null (h : publicActionIeOffset ≤ f.len) (ha : a < f.len - publicActionIeOffset)
    (hnull : ¬ f.len - publicActionIeOffset < 2 ^ 31 ∨ maxIeSz < a) : f.ieTurn a = some (.inr none) := by
  have hcond : f.inLen < 0 ∨ maxIeSz < a := by
    rwa [inLen_neg h]
  unfold ieTurn
  rw [iesLen_eq h, if_pos ha, byte_eq (by omega), Option.bind_eq_bind, Option.bind_some, if_pos hcond]

theorem ieTurn_eq (h : publicActionIeOffset ≤ f.len) (ha : a < f.len - publicActionIeOffset)
    (hlen : f.len - publicActionIeOffset < 2 ^ 31) (hmax : a ≤ maxIeSz) :
    f.ieTurn a = (f.isP2pOui (f.mem (publicActionIeOffset + a)) (publicActionIeOffset + a + 2)).bind fun found =>
      (f.byte (publicActionIeOffset + a + 1)).bind fun n =>
        if found then some (.inr (some (publicActionIeOffset + a, n.toNat + 2))) else some (.inl (a + (n.toNat + 2))) := by
  have hcond : ¬ (f.inLen < 0 ∨ maxIeSz < a) := by
    rw [inLen_neg h]
    omega
  unfold ieTurn
  rw [iesLen_eq h, if_pos ha, byte_eq (by omega), Option.bind_eq_bind, Option.bind_some, if_neg hcond]
  rfl

theorem ieTurn_in (h : publicActionIeOffset ≤ f.len) (ha : a < f.len - publicActionIeOffset)
    (hlen : f.len - publicActionIeOffset < 2 ^ 31) (hmax : a ≤ maxIeSz) (hhdr : publicActionIeOffset + a + 2 ≤ f.len)
    (hv : f.mem (publicActionIeOffset + a) = vendorSpecificIe → publicActionIeOffset + a + 6 ≤ f.len) :
    f.ieTurn a = if f.P2pAt (publicActionIeOffset + a)
      then some (.inr (some (publicActionIeOffset + a, f.elemSize (publicActionIeOffset + a))))
      else some (.inl (a + f.elemSize (publicActionIeOffset + a))) := by
  rw [ieTurn_eq h ha hlen hmax, isP2pOui_at hv, byte_eq (by omega)]
  by_cases hp : f.P2pAt (publicActionIeOffset + a)
  · rw [if_pos hp, decide_eq_true hp]
    rfl
  · rw [if_neg hp, decide_eq_false hp]
    rfl

theorem ieTurn_outside (h : publicActionIeOffset ≤ f.len) (ha : a < f.len - publicActionIeOffset)
    (hlen : f.len - publicActionIeOffset < 2 ^ 31) (hmax : a ≤ maxIeSz)
    (hout : ¬ (publicActionIeOffset + a + 2 ≤ f.len ∧
      (f.mem (publicActionIeOffset + a) = vendorSpecificIe → publicActionIeOffset + a + 6 ≤ f.len))) :
    f.ieTurn a = none := by
  rw [ieTurn_eq h ha hlen hmax]
  by_cases hv : f.mem (publicActionIeOffset + a) = vendorSpecificIe
  · have hsix : ¬ publicActionIeOffset + a + 6 ≤ f.len := fun hsix => hout ⟨by omega, fun _ => hsix⟩
    rw [hv, isP2pOui_none (by omega)]
    rfl
  · have htwo : ¬ publicActionIeOffset + a + 2 ≤ f.len := fun htwo => hout ⟨htwo, fun hv' => absurd hv' hv⟩
    rw [isP2pOui_other hv, byte_none (by omega)]
    rfl

theorem ieTurn_fits (h : publicActionIeOffset ≤ f.len) (hfit : f.IeFits log a) :
    (∃ r, f.ieTurn a = some (.inr r) ∧ f.IeGood log r ∧ ∀ t, ¬ f.IeStep a t) ∨
    ∃ t, f.ieTurn a = some (.inl t) ∧ 513 - t < 513 - a ∧ ∀ u, f.IeStep a u ↔ u = t := by
  by_cases ha : a < f.len - publicActionIeOffset
  · by_cases hnull : ¬ f.len - publicActionIeOffset < 2 ^ 31 ∨ maxIeSz < a
    · refine .inl ⟨none, ieTurn_null h ha hnull, trivial, fun t ht => ?_⟩
      rcases hnull with hnull | hnull
      · exact hnull ht.2.1
      · exact absurd ht.2.2.1 (Nat.not_le.mpr hnull)
    · have hlen : f.len - publicActionIeOffset < 2 ^ 31 := Classical.not_not.mp fun hn => hnull (.inl hn)
      have hmax : a ≤ maxIeSz := Nat.not_lt.mp fun hn => hnull (.inr hn)
      obtain ⟨hhdr, hv, hattrs⟩ := hfit ha hlen hmax
      rw [ieTurn_in h ha hlen hmax hhdr hv]
      by_cases hp : f.P2pAt (publicActionIeOffset + a)
      · rw [if_pos hp]
        exact .inl ⟨_, rfl, ⟨rfl, hattrs hp⟩, fun t ht => ht.2.2.2.1 hp⟩
      · rw [if_neg hp]
        refine .inr ⟨_, rfl, ?_, fun u => ⟨fun hu => hu.2.2.2.2, fun hu => ⟨ha, hlen, hmax, hp, hu⟩⟩⟩
        unfold maxIeSz at hmax
        unfold elemSize
        omega
  · exact .inl ⟨none, ieTurn_end h ha, trivial, fun t ht => ha ht.1⟩

theorem ieTurn_breaks (h : publicActionIeOffset ≤ f.len) (hfit : ¬ f.IeFits log a) :
    f.ieTurn a = none ∨ f.ieTurn a = some (.inl a) ∨ ∃ r, f.ieTurn a = some (.inr r) ∧ ¬ f.IeGood log r := by
  unfold IeFits at hfit
  simp only [Classical.not_imp] at hfit
  obtain ⟨ha, hlen, hmax, hbad⟩ := hfit
  by_cases hin : publicActionIeOffset + a + 2 ≤ f.len ∧
      (f.mem (publicActionIeOffset + a) = vendorSpecificIe → publicActionIeOffset + a + 6 ≤ f.len)
  · have hp : f.P2pAt (publicActionIeOffset + a) :=
      Classical.byContradiction fun hp => hbad ⟨hin.1, hin.2, fun h => absurd h hp⟩
    rw [ieTurn_in h ha hlen hmax hin.1 hin.2, if_pos hp]
    exact .inr (.inr ⟨_, rfl, fun hgood => hbad ⟨hin.1, hin.2, fun _ => hgood.2⟩⟩)
  · exact .inl (ieTurn_outside h ha hlen hmax hin)

theorem ieLoop_iff (log : Bool) (h : publicActionIeOffset ≤ f.len) :
    (∃ fuel r, Turns.run f.ieTurn fuel 0 = some r ∧ f.IeGood log r) ↔ ∀ a, ReflTransGen f.IeStep 0 a → f.IeFits log a :=
  Turns.run_iff (fun a => 513 - a) (fun _ => ieTurn_fits h) (fun _ => ieTurn_breaks h) 0

theorem ieTurn_short (h : ¬ publicActionIeOffset ≤ f.len) : f.ieTurn 0 = none := by
  have hpos : 0 < f.iesLen := by
    unfold iesLen publicActionIeOffset at *
    omega
  unfold ieTurn
  rw [if_pos hpos, byte_none (by omega)]
  rfl

theorem ieTurn_next (h : publicActionIeOffset ≤ f.len) (ht : f.ieTurn a = some (.inl b)) :
    ¬ f.P2pAt (publicActionIeOffset + a) ∧ publicActionIeOffset + a + 2 ≤ f.len ∧
      b = a + f.elemSize (publicActionIeOffset + a) := by
  by_cases ha : a < f.len - publicActionIeOffset
  · by_cases hnull : ¬ f.len - publicActionIeOffset < 2 ^ 31 ∨ maxIeSz < a
    · rw [ieTurn_null h ha hnull] at ht
      simp at ht
    · have hlen : f.len - publicActionIeOffset < 2 ^ 31 := Classical.not_not.mp fun hn => hnull (.inl hn)
      have hmax : a ≤ maxIeSz := Nat.not_lt.mp fun hn => hnull (.inr hn)
      by_cases hin : publicActionIeOffset + a + 2 ≤ f.len ∧
          (f.mem (publicActionIeOffset + a) = vendorSpecificIe → publicActionIeOffset + a + 6 ≤ f.len)
      · rw [ieTurn_in h ha hlen hmax hin.1 hin.2] at ht
        by_cases hp : f.P2pAt (publicActionIeOffset + a)
        · rw [if_pos hp] at ht
          simp at ht
        · rw [if_neg hp] at ht
          exact ⟨hp, hin.1, (Sum.inl.inj (Option.some.inj ht)).symm⟩
      · rw [ieTurn_outside h ha hlen hmax hin] at ht
        cases ht
  · rw [ieTurn_end h ha] at ht
    simp at ht

theorem ieTurn_found (h : publicActionIeOffset ≤ f.len) (ht : f.ieTurn a = some (.inr (some (ie, n)))) :
    ie = publicActionIeOffset + a ∧ n = f.elemSize ie ∧ f.P2pAt ie ∧ ie + 6 ≤ f.len := by
  by_cases ha : a < f.len - publicActionIeOffset
  · by_cases hnull : ¬ f.len - publicActionIeOffset < 2 ^ 31 ∨ maxIeSz < a
    · rw [ieTurn_null h ha hnull] at ht
      simp at ht
    · have hlen : f.len - publicActionIeOffset < 2 ^ 31 := Classical.not_not.mp fun hn => hnull (.inl hn)
      have hmax : a ≤ maxIeSz := Nat.not_lt.mp fun hn => hnull (.inr hn)
      by_cases hin : publicActionIeOffset + a + 2 ≤ f.len ∧
          (f.mem (publicActionIeOffset + a) = vendorSpecificIe → publicActionIeOffset + a + 6 ≤ f.len)
      · rw [ieTurn_in h ha hlen hmax hin.1 hin.2] at ht
        by_cases hp : f.P2pAt (publicActionIeOffset + a)
        · rw [if_pos hp] at ht
          simp only [Option.some.injEq, Sum.inr.injEq, Prod.mk.injEq] at ht
          obtain ⟨rfl, rfl⟩ := ht
          exact ⟨rfl, rfl, hp, hin.2 hp.1⟩
        · rw [if_neg hp] at ht
          simp at ht
      · rw [ieTurn_outside h ha hlen hmax hin] at ht
        cases ht
  · rw [ieTurn_end h ha] at ht
    simp at ht

theorem found_first (h : publicActionIeOffset ≤ f.len)
    (hrun : Turns.run f.ieTurn fuel 0 = some (some (ie, n))) : n = f.elemSize ie ∧ f.FirstP2p ie := by
  obtain ⟨a, hwalk, hlast⟩ := Turns.run_last hrun
  obtain ⟨rfl, hn, hp, hin⟩ := ieTurn_found h hlast
  refine ⟨hn, ?_, hp, hin⟩
  have hstep (a b : Nat) (hab : f.ieTurn a = some (.inl b)) : ¬ f.P2pAt (publicActionIeOffset + a) ∧
      publicActionIeOffset + a + 2 ≤ f.len ∧
      publicActionIeOffset + b = publicActionIeOffset + a + f.elemSize (publicActionIeOffset + a) := by
    obtain ⟨h1, h2, rfl⟩ := ieTurn_next h hab
    exact ⟨h1, h2, (Nat.add_assoc _ _ _).symm⟩
  exact ReflTransGen.lift (fun a => publicActionIeOffset + a) hstep _ _ hwalk

theorem FirstP2p.unique {ie' : Nat} (h : f.FirstP2p ie) (h' : f.FirstP2p ie') : ie = ie' := by
  obtain ⟨hwalk, hp, -⟩ := h
  obtain ⟨hwalk', hp', -⟩ := h'
  generalize publicActionIeOffset = start at hwalk hwalk'
  induction hwalk using ReflTransGen.head_induction_on with
  | refl =>
    rcases ReflTransGen.cases_head hwalk' with heq | ⟨c, hc, -⟩
    · exact heq
    · exact absurd hp hc.1
  | head hab _ ih =>
    rcases ReflTransGen.cases_head hwalk' with rfl | ⟨c, hc, hrest⟩
    · exact absurd hp' hab.1
    · obtain rfl := hc.2.2.trans hab.2.2.symm
      exact ih hrest

/-- With the element that was found, the rest of the function is the loop over the attributes and the write. -/
theorem rest_eq (fuel : Nat) (hp : f.P2pAt ie) (hin : ie + 6 ≤ f.len) :
    (f.atbmGetP2pAttrContent fuel ie n p2pAttrGoIntent 1).bind (f.writeIntent log intent) =
      (Turns.run (f.attrTurn ie n p2pAttrGoIntent) fuel 6).bind (f.finishIntent log intent) := by
  have hfound : f.isP2pOui (f.mem ie) (ie + 2) = some true := by
    rw [isP2pOui_at fun _ => hin, decide_eq_true hp]
  have hattr : f.atbmGetP2pAttr fuel ie n p2pAttrGoIntent = Turns.run (f.attrTurn ie n p2pAttrGoIntent) fuel 6 := by
    unfold atbmGetP2pAttr
    rw [byte_eq (by omega), Option.bind_eq_bind, Option.bind_some, hfound]
    rfl
  unfold atbmGetP2pAttrContent
  rw [hattr]
  exact Option.bind_assoc _ _ _

theorem change_none (hrun : Turns.run f.ieTurn fuel 0 = some none) :
    f.p2pChangeNegotationIntent log intent fuel = some ⟨0, f.mem, none⟩ := by
  unfold p2pChangeNegotationIntent
  rw [hrun]
  rfl

theorem change_some (h : publicActionIeOffset ≤ f.len) (hrun : Turns.run f.ieTurn fuel 0 = some (some (ie, n))) :
    f.p2pChangeNegotationIntent log intent fuel =
      (Turns.run (f.attrTurn ie (f.elemSize ie) p2pAttrGoIntent) fuel 6).bind (f.finishIntent log intent) := by
  obtain ⟨rfl, -, hp, hin⟩ := found_first h hrun
  rw [← rest_eq fuel hp hin]
  unfold p2pChangeNegotationIntent
  rw [hrun]
  rfl

theorem finishIntent_others {attr : Option (Nat × Nat)} {res : IntentResult}
    (h : f.finishIntent log intent attr = some res) : ∀ x, res.written ≠ some x → res.mem x = f.mem x := by
  obtain ⟨content, -, hw⟩ := Option.bind_eq_some_iff.mp h
  exact (writeIntent_others hw).1

theorem attrLoop_found
    (h : Turns.run (f.attrTurn ie (f.elemSize ie) p2pAttrGoIntent) fuel 6 = some r) : f.AttrFound ie r := by
  obtain ⟨off, -, hlast⟩ := Turns.run_last h
  exact attrTurn_found hlast

theorem change_iff_good (h : publicActionIeOffset ≤ f.len) (log : Bool) (intent : UInt8) :
    (∃ fuel res, f.p2pChangeNegotationIntent log intent fuel = some res ∧ res.Confined f) ↔
      ∃ fuel r, Turns.run f.ieTurn fuel 0 = some r ∧ f.IeGood log r := by
  constructor
  · rintro ⟨fuel, res, hres, hconf⟩
    cases hrun : Turns.run f.ieTurn fuel 0 with
    | none =>
      unfold p2pChangeNegotationIntent at hres
      rw [hrun] at hres
      cases hres
    | some found =>
      refine ⟨fuel, found, hrun, ?_⟩
      cases found with
      | none => trivial
      | some pair =>
        obtain ⟨ie, n⟩ := pair
        obtain ⟨hn, hfirst⟩ := found_first h hrun
        rw [change_some h hrun] at hres
        obtain ⟨attr, hattr, hfin⟩ := Option.bind_eq_some_iff.mp hres
        refine ⟨hn, (attrLoop_iff f log ie).mp ⟨fuel, attr, hattr, ?_⟩⟩
        refine (finishIntent_iff log intent (attrLoop_found hattr)).mp ⟨res, hfin, fun x hx => ?_⟩
        obtain ⟨ie', hfirst', hoctet⟩ := hconf.written x hx
        rwa [hfirst.unique hfirst']
  · rintro ⟨fuel, found, hrun, hgood⟩
    cases found with
    | none => exact ⟨fuel, _, change_none hrun, nofun, fun _ _ => rfl⟩
    | some pair =>
      obtain ⟨ie, n⟩ := pair
      obtain ⟨-, hfirst⟩ := found_first h hrun
      obtain ⟨fuel', attr, hattr, hok⟩ := (attrLoop_iff f log ie).mpr hgood.2
      obtain ⟨res, hres, hwritten⟩ := (finishIntent_iff log intent (attrLoop_found hattr)).mpr hok
      have hmono := Turns.run_mono hrun (Nat.le_max_left fuel fuel')
      refine ⟨max fuel fuel', res, ?_, ⟨fun x hx => ⟨ie, hfirst, hwritten x hx⟩, finishIntent_others hres⟩⟩
      rw [change_some h hmono, Turns.run_mono hattr (Nat.le_max_right fuel fuel')]
      exact hres

end ActionBody

/-- **The rewriting of the intent** ends within the frame, copies no more than the one octet there is room for, and
writes nothing but the value octet of a GO Intent attribute inside the first P2P element, exactly when the frame has
its eight fixed octets and all that the two loops come to fits. -/
theorem p2pChangeNegotationIntent_confined_iff (f : ActionBody) (log : Bool) (intent : UInt8) :
    (∃ fuel res, f.p2pChangeNegotationIntent log intent fuel = some res ∧ res.Confined f) ↔ f.IntentFits log := by
  by_cases h : publicActionIeOffset ≤ f.len
  · rw [ActionBody.change_iff_good h, ActionBody.ieLoop_iff log h]
    exact ⟨fun he => ⟨h, he⟩, fun hf => hf.elements⟩
  · constructor
    · rintro ⟨fuel, res, hres, -⟩
      unfold ActionBody.p2pChangeNegotationIntent at hres
      rw [Turns.run_fault (ActionBody.ieTurn_short h)] at hres
      cases hres
    · exact fun hf => absurd hf.long h

/-- A negotiation request whose P2P element holds an attribute with the length 0xfffd. -/
def hangingBody : ActionBody where
  mem x := [0x04, 0x09, 0x50, 0x6f, 0x9a, 0x09, 0x00, 0x01, 0xdd, 0x07, 0x50, 0x6f, 0x9a, 0x09, 0x02, 0xfd, 0xff].getD x 0
  len := 17
  lt := by decide

theorem hangingBody_hangs : ¬ ∃ fuel res, hangingBody.p2pChangeNegotationIntent false 1 fuel = some res ∧
    res.Confined hangingBody := by
  rintro ⟨fuel, res, hres, -⟩
  have hstuck : hangingBody.attrTurn 8 9 p2pAttrGoIntent 6 = some (.inl 6) := by decide
  have hfound : Turns.run hangingBody.ieTurn 1 0 = some (some (8, 9)) := by decide
  cases fuel with
  | zero => cases hres
  | succ fuel =>
    have hrun := Turns.run_mono hfound (Nat.succ_le_succ (Nat.zero_le fuel))
    rw [ActionBody.change_some (by decide) hrun] at hres
    have hnone : Turns.run (hangingBody.attrTurn 8 (hangingBody.elemSize 8) p2pAttrGoIntent) (fuel + 1) 6 = none :=
      Turns.run_stuck hstuck
    rw [hnone] at hres
    cases hres

end AtbmWifi
