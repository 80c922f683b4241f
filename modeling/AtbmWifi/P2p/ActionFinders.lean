import AtbmWifi.P2p.ActionFrame

/-!
# The finders of P2P action frames

In a frame whose P2P elements stand in a row, the loops of `ieee80211_parase_p2p_action_attrs` go from element to
element and find the first attribute of every kind (`paraseP2pActionAttrs_row`).
-/

namespace AtbmWifi

open Memory

namespace P2pSkb

variable {k : P2pSkb} {a stop fuel : Nat} {l : List Nat} {msg : P2pMessage}

variable {i n : Nat}

theorem byte_eq (h : i < k.len) : k.byte i = some (k.mem i) := if_pos h

theorem bytes_eq (h : i + n ≤ k.len) : k.bytes i n = some (read k.mem i n) := if_pos h

theorem le16_eq (h : a + 2 < k.len) : k.le16 (a + 1) = some (k.attrData a) := by
  unfold le16
  rw [byte_eq (by omega), byte_eq (by omega)]
  rfl

theorem oui_eq (h : i + 3 ≤ k.len) :
    k.oui i = some ((k.mem i).toNat * 65536 + (k.mem (i + 1)).toNat * 256 + (k.mem (i + 2)).toNat) := by
  unfold oui
  rw [byte_eq (by omega), byte_eq (by omega), byte_eq (by omega)]
  rfl

theorem read_three (m : Nat → UInt8) (i : Nat) : read m i 3 = [m i, m (i + 1), m (i + 2)] := rfl

theorem read_four (m : Nat → UInt8) (i : Nat) : read m i 4 = [m i, m (i + 1), m (i + 2), m (i + 3)] := rfl

theorem oui_wfa : (k.mem i).toNat * 65536 + (k.mem (i + 1)).toNat * 256 + (k.mem (i + 2)).toNat = atbmOuiWfa ↔
      read k.mem i 3 = [0x50, 0x6f, 0x9a] := by
  have h₀ := (k.mem i).toNat_lt
  have h₁ := (k.mem (i + 1)).toNat_lt
  have h₂ := (k.mem (i + 2)).toNat_lt
  rw [read_three]
  unfold atbmOuiWfa
  constructor
  · intro h
    have e₀ : k.mem i = 0x50 := UInt8.toNat_inj.mp (show _ = 80 by omega)
    have e₁ : k.mem (i + 1) = 0x6f := UInt8.toNat_inj.mp (show _ = 111 by omega)
    have e₂ : k.mem (i + 2) = 0x9a := UInt8.toNat_inj.mp (show _ = 154 by omega)
    rw [e₀, e₁, e₂]
  · intro h
    injection h with e₀ h
    injection h with e₁ h
    injection h with e₂ h
    rw [e₀, e₁, e₂]
    rfl

theorem attrs_cons (h : a + k.attrSize a ≤ stop) : k.attrs a stop = a :: k.attrs (a + k.attrSize a) stop := by
  rw [attrs, if_pos h]

theorem attrs_nil (h : ¬ a + k.attrSize a ≤ stop) : k.attrs a stop = [] := by
  rw [attrs, if_neg h]

theorem attrs_past (h : stop ≤ a) : k.attrs a stop = [] := by
  apply attrs_nil
  unfold attrSize
  omega

theorem firstOf_cons (κ : P2pAttr) :
    k.firstOf (a :: l) κ = if k.mem a = κ.id then some a else k.firstOf l κ := by
  unfold firstOf
  rw [List.find?_cons]
  by_cases h : k.mem a = κ.id
  · rw [if_pos h, beq_iff_eq.mpr h]
  · rw [if_neg h, beq_eq_false_iff_ne.mpr h]

theorem firstOf_append (l₁ l₂ : List Nat) (κ : P2pAttr) :
    k.firstOf (l₁ ++ l₂) κ = (k.firstOf l₁ κ).or (k.firstOf l₂ κ) := List.find?_append

theorem attrTurn_run (κ : P2pAttr) (hstop : stop ≤ k.len) (hfuel : stop - a < fuel) :
    Turns.run (k.attrTurn κ.id) fuel (a, stop - a) = some (k.firstOf (k.attrs a stop) κ) := by
  induction fuel generalizing a with
  | zero => omega
  | succ fuel ih =>
    by_cases hroom : 2 < stop - a
    · have hturn : k.attrTurn κ.id (a, stop - a) = if k.mem a ≠ κ.id then
          some (.inl (a + (k.attrData a + 3), stop - a - (k.attrData a + 3)))
          else some (.inr (if stop - a < 3 + k.attrData a then none else some a)) := by
        unfold attrTurn
        dsimp only
        rw [if_pos hroom, byte_eq (by omega), le16_eq (by omega)]
        rfl
      have hsize : a + (k.attrData a + 3) = a + k.attrSize a := by
        unfold attrSize
        omega
      by_cases hid : k.mem a = κ.id
      · rw [if_neg (not_not_intro hid)] at hturn
        rw [Turns.run_leave hturn]
        by_cases hin : a + k.attrSize a ≤ stop
        · rw [attrs_cons hin, firstOf_cons, if_pos hid, if_neg (by omega)]
        · rw [attrs_nil hin, if_pos (by omega)]
          rfl
      · rw [if_pos hid, Nat.sub_sub, hsize] at hturn
        rw [Turns.run_next hturn, ih (by unfold attrSize; omega)]
        by_cases hin : a + k.attrSize a ≤ stop
        · rw [attrs_cons hin, firstOf_cons, if_neg hid]
        · rw [attrs_nil hin, attrs_past (by omega)]
    · have hturn : k.attrTurn κ.id (a, stop - a) = some (.inr none) := by
        unfold attrTurn
        dsimp only
        rw [if_neg hroom]
      rw [Turns.run_leave hturn, attrs_nil (by unfold attrSize; omega)]
      rfl

theorem findIfNull_fold (F : P2pAttr → Option Nat) (hF : ∀ κ, k.findP2pAttr fuel a n κ.id = some (F κ))
    (kinds : List P2pAttr) (hnodup : kinds.Nodup) :
    kinds.foldlM (k.findIfNull fuel a n) msg =
      some fun κ => if κ ∈ kinds then (msg κ).or (F κ) else msg κ := by
  induction kinds generalizing msg with
  | nil => simp
  | cons κ₀ kinds ih =>
    obtain ⟨hnot, hrest⟩ := List.nodup_cons.mp hnodup
    have hstep : k.findIfNull fuel a n msg κ₀ = some (setAt msg κ₀ ((msg κ₀).or (F κ₀))) := by
      unfold findIfNull
      cases hmsg : msg κ₀ with
      | none =>
        rw [if_pos rfl, hF]
        rfl
      | some x =>
        rw [if_neg nofun]
        congr 1
        funext κ
        by_cases hκ : κ = κ₀
        · rw [hκ, setAt_self, hmsg]
          rfl
        · rw [setAt_of_ne hκ]
    rw [List.foldlM_cons, hstep]
    refine (ih hrest).trans ?_
    congr 1
    funext κ
    by_cases hκ : κ = κ₀
    · subst hκ
      rw [if_neg hnot, if_pos List.mem_cons_self, setAt_self]
    · rw [setAt_of_ne hκ]
      simp only [List.mem_cons, hκ, false_or]

theorem elemAttrs_fold (hp2p : k.P2pAt a) (hin : a + k.elemSize a ≤ k.len) (hfuel : k.len < fuel) :
    P2pAttr.all.foldlM (k.findIfNull fuel (a + 6) ((k.mem (a + 1)).toNat - 4)) msg =
      some fun κ => (msg κ).or (k.firstOf (k.elemAttrs a) κ) := by
  have h6 := hp2p.2
  have hsize : k.elemSize a = 2 + (k.mem (a + 1)).toNat := rfl
  rw [findIfNull_fold (k.firstOf (k.elemAttrs a)) ?_ _ (by decide)]
  · congr 1
    funext κ
    exact if_pos (by cases κ <;> decide)
  · intro κ
    unfold findP2pAttr
    rw [if_neg (by omega)]
    have hrun := @attrTurn_run k (a + 6) (a + k.elemSize a) fuel κ hin (by omega)
    rwa [show a + k.elemSize a - (a + 6) = (k.mem (a + 1)).toNat - 4 by omega] at hrun

theorem ieFound_eq {len : Nat} (h : a + 1 < k.len) :
    k.ieFound a len = some (if len < k.elemSize a then none else some a) := by
  unfold ieFound
  rw [byte_eq h]
  rfl

theorem ieTurn_eq (room : a + 2 ≤ k.len) :
    k.ieTurn atbmWlanEidVendorSpecific (a, k.len + 1 - a) =
      if k.mem a = atbmWlanEidVendorSpecific then
        some (.inr (if k.len + 1 < a + k.elemSize a then none else some a))
      else some (.inl (a + k.elemSize a, k.len + 1 - (a + k.elemSize a))) := by
  unfold ieTurn
  dsimp only
  rw [if_pos (by omega), byte_eq (by omega)]
  dsimp only [Option.bind_eq_bind, Option.bind_some]
  by_cases hid : k.mem a = atbmWlanEidVendorSpecific
  · rw [if_neg (not_not_intro hid), if_pos hid, ieFound_eq (by omega)]
    have hiff : k.len + 1 - a < k.elemSize a ↔ k.len + 1 < a + k.elemSize a := by omega
    simp only [hiff, Option.map_some]
  · rw [if_pos hid, if_neg hid, byte_eq (by omega)]
    dsimp only [Option.bind_some]
    rw [Nat.sub_sub, Nat.add_comm (k.mem (a + 1)).toNat 2]
    rfl

theorem ieTurn_gone (h : k.len ≤ a) : k.ieTurn atbmWlanEidVendorSpecific (a, k.len + 1 - a) = some (.inr none) := by
  unfold ieTurn
  dsimp only
  rw [if_neg (by omega), if_pos (by omega)]

structure OtherVendor (k : P2pSkb) (a ie : Nat) : Prop where
  le : a ≤ ie
  room : ie + 2 ≤ k.len
  id : k.mem ie = atbmWlanEidVendorSpecific
  inside : ie + k.elemSize ie ≤ k.len + 1
  other : ¬ k.P2pAt ie
  rest : k.Rest (ie + k.elemSize ie)

theorem ieTurn_rest (h : k.Rest a) (hfuel : k.len + 1 - a < fuel) :
    ∃ r, Turns.run (k.ieTurn atbmWlanEidVendorSpecific) fuel (a, k.len + 1 - a) = some r ∧
      ∀ ie, r = some ie → k.OtherVendor a ie := by
  induction h generalizing fuel with
  | gone h =>
    obtain ⟨fuel, rfl⟩ := Nat.exists_eq_succ_of_ne_zero (show fuel ≠ 0 by omega)
    exact ⟨none, Turns.run_leave (ieTurn_gone h), nofun⟩
  | @skip a room other rest ih =>
    obtain ⟨fuel, rfl⟩ := Nat.exists_eq_succ_of_ne_zero (show fuel ≠ 0 by omega)
    have hturn := ieTurn_eq room
    by_cases hid : k.mem a = atbmWlanEidVendorSpecific
    · rw [if_pos hid] at hturn
      refine ⟨_, Turns.run_leave hturn, fun ie hie => ?_⟩
      split at hie
      · cases hie
      · next hin =>
        obtain rfl := Option.some.inj hie
        exact ⟨Nat.le_refl _, room, hid, by omega, fun hp2p => hin (other hp2p), rest⟩
    · rw [if_neg hid] at hturn
      obtain ⟨r, hr, hvendor⟩ := @ih fuel (by unfold elemSize; omega)
      refine ⟨r, (Turns.run_next hturn).trans hr, fun ie hie => ?_⟩
      have hv := hvendor ie hie
      exact { hv with le := Nat.le_trans (Nat.le_add_right _ _) hv.le }

theorem vendorTurn_eq {ie : Nat} (hlt : a < k.len + 1)
    (hie : Turns.run (k.ieTurn atbmWlanEidVendorSpecific) fuel (a, k.len + 1 - a) = some (some ie))
    (hid : k.mem ie = atbmWlanEidVendorSpecific) (room : ie + 2 ≤ k.len) (hin : ie + k.elemSize ie ≤ k.len + 1) :
    k.vendorTurn fuel atbmOuiWfa atbmP2pOuiType (k.len + 1) a =
      if k.P2pAt ie then some (.inr (some ie)) else some (.inl (ie + k.elemSize ie)) := by
  have hsize : k.elemSize ie = 2 + (k.mem (ie + 1)).toNat := rfl
  unfold vendorTurn
  rw [if_pos hlt, hie]
  dsimp only [Option.bind_eq_bind, Option.bind_some]
  rw [byte_eq (by omega)]
  dsimp only [Option.bind_some]
  by_cases h6 : (k.mem (ie + 1)).toNat < 6
  · rw [if_pos h6, if_neg fun hp2p => Nat.not_le.mpr h6 hp2p.2]
    rfl
  · rw [if_neg h6, oui_eq (by omega)]
    dsimp only [Option.bind_some]
    by_cases houi : read k.mem (ie + 2) 3 = [0x50, 0x6f, 0x9a]
    · rw [if_pos (oui_wfa.mpr houi), byte_eq (by omega)]
      dsimp only [Option.bind_some]
      have hp2p : k.P2pAt ie ↔ k.mem (ie + 5) = atbmP2pOuiType := by
        unfold P2pAt IsP2p
        rw [read_three] at houi
        rw [read_four]
        injection houi with e₀ houi
        injection houi with e₁ houi
        injection houi with e₂ houi
        rw [e₀, e₁, e₂]
        constructor
        · rintro ⟨⟨-, -, h⟩, -⟩
          simpa using h
        · intro h
          rw [show ie + 2 + 3 = ie + 5 from rfl, h]
          exact ⟨⟨hid, by omega, rfl⟩, by omega⟩
      simp only [hp2p]
      rfl
    · rw [if_neg fun h => houi (oui_wfa.mp h), if_neg]
      · rfl
      · rintro ⟨⟨-, -, h⟩, -⟩
        apply houi
        rw [read_three]
        rw [read_four] at h
        injection h with e₀ h
        injection h with e₁ h
        injection h with e₂ h
        rw [e₀, e₁, e₂]

theorem findP2pIe_rest (h : k.Rest a) (hfuel : k.len + 1 < fuel) : k.findP2pIe fuel a (k.len + 1 - a) = some none := by
  have hrun (n : Nat) (hn : k.len + 1 - a < n) :
      Turns.run (k.vendorTurn fuel atbmOuiWfa atbmP2pOuiType (k.len + 1)) n a = some none := by
    induction n generalizing a with
    | zero => omega
    | succ n ih =>
      by_cases hlt : a < k.len + 1
      · obtain ⟨r, hr, hvendor⟩ := ieTurn_rest h (show k.len + 1 - a < fuel by omega)
        cases r with
        | none =>
          apply Turns.run_leave
          unfold vendorTurn
          rw [if_pos hlt, hr]
          rfl
        | some ie =>
          obtain ⟨hle, room, hid, hin, hother, hrest⟩ := hvendor ie rfl
          have hturn := vendorTurn_eq hlt hr hid room hin
          rw [if_neg hother] at hturn
          rw [Turns.run_next hturn]
          exact ih hrest (by unfold elemSize; omega)
      · apply Turns.run_leave
        unfold vendorTurn
        rw [if_neg hlt]
  unfold findP2pIe
  by_cases hlen : k.len + 1 - a = 0
  · rw [if_pos hlen]
  · rw [if_neg hlen, show a + (k.len + 1 - a) = k.len + 1 by omega]
    exact hrun fuel (by omega)

theorem findP2pIe_at (hp2p : k.P2pAt a) (hin : a + k.elemSize a ≤ k.len) (hfuel : k.len + 1 < fuel) :
    k.findP2pIe fuel a (k.len + 1 - a) = some (some a) := by
  have hsize : k.elemSize a = 2 + (k.mem (a + 1)).toNat := rfl
  have hid := hp2p.1.1
  obtain ⟨fuel, rfl⟩ := Nat.exists_eq_succ_of_ne_zero (show fuel ≠ 0 by omega)
  have hie : Turns.run (k.ieTurn atbmWlanEidVendorSpecific) (fuel + 1) (a, k.len + 1 - a) = some (some a) := by
    have hturn := @ieTurn_eq k a (by omega)
    rw [if_pos hid, if_neg (by omega)] at hturn
    exact Turns.run_leave hturn
  have hturn := vendorTurn_eq (by omega) hie hid (by omega) (by omega)
  rw [if_pos hp2p] at hturn
  unfold findP2pIe
  rw [if_neg (by omega), show a + (k.len + 1 - a) = k.len + 1 by omega]
  exact Turns.run_leave hturn

theorem attrsTurn_row {find : Bool} (h : k.Row a l) (hfuel : k.len + 1 < fuel) (hn : k.len + 1 - a < n) :
    Turns.run (k.attrsTurn fuel (k.len + 1)) n (a, msg, find) =
      some (fun κ => (msg κ).or (k.firstOf (l.flatMap k.elemAttrs) κ), find || !l.isEmpty) := by
  induction h generalizing msg find n with
  | @rest a h =>
    obtain ⟨n, rfl⟩ := Nat.exists_eq_succ_of_ne_zero (show n ≠ 0 by omega)
    have hturn : k.attrsTurn fuel (k.len + 1) (a, msg, find) = some (.inr (msg, find)) := by
      unfold attrsTurn
      dsimp only
      by_cases hlt : a < k.len + 1
      · rw [if_pos hlt, findP2pIe_rest h hfuel]
        rfl
      · rw [if_neg hlt]
    rw [Turns.run_leave hturn]
    simp [firstOf]
  | @last a inside p2p short =>
    obtain ⟨n, rfl⟩ := Nat.exists_eq_succ_of_ne_zero (show n ≠ 0 by omega)
    have hsize : k.elemSize a = 2 + (k.mem (a + 1)).toNat := rfl
    have hturn : k.attrsTurn fuel (k.len + 1) (a, msg, find) = some (.inr (msg, find)) := by
      unfold attrsTurn
      dsimp only
      rw [if_pos (by omega), findP2pIe_at p2p inside hfuel]
      dsimp only [Option.bind_eq_bind, Option.bind_some]
      rw [byte_eq (by omega)]
      dsimp only [Option.bind_some]
      rw [short]
      rfl
    rw [Turns.run_leave hturn]
    simp [firstOf]
  | @cons a l inside p2p room rest ih =>
    obtain ⟨n, rfl⟩ := Nat.exists_eq_succ_of_ne_zero (show n ≠ 0 by omega)
    have hsize : k.elemSize a = 2 + (k.mem (a + 1)).toNat := rfl
    have h6 := p2p.2
    have hturn : k.attrsTurn fuel (k.len + 1) (a, msg, find) =
        some (.inl (a + k.elemSize a, fun κ => (msg κ).or (k.firstOf (k.elemAttrs a) κ), true)) := by
      unfold attrsTurn
      dsimp only
      rw [if_pos (by omega), findP2pIe_at p2p inside hfuel]
      dsimp only [Option.bind_eq_bind, Option.bind_some]
      rw [byte_eq (by omega)]
      dsimp only [Option.bind_some]
      rw [if_neg (by omega), if_neg (by omega), elemAttrs_fold p2p inside (by omega)]
      rfl
    rw [Turns.run_next hturn, ih (by omega)]
    congr 2
    · funext κ
      rw [List.flatMap_cons, firstOf_append, Option.or_assoc]
    · simp

theorem paraseP2pActionAttrs_row (h : k.Row p2pVariable l) (hlen : p2pVariable ≤ k.len) (hfuel : k.len + 1 < fuel) :
    k.paraseP2pActionAttrs fuel p2pVariable (k.len + 1 - p2pVariable) =
      some (if l = [] then none else some (k.firstOf (l.flatMap k.elemAttrs))) := by
  unfold paraseP2pActionAttrs
  rw [show p2pVariable + (k.len + 1 - p2pVariable) = k.len + 1 by omega, attrsTurn_row h hfuel (by omega)]
  dsimp only [Option.bind_eq_bind, Option.bind_some]
  cases l with
  | nil => rfl
  | cons ie l => rfl

theorem paraseP2pActionAttrs_short (hfuel : fuel ≠ 0) : k.paraseP2pActionAttrs fuel a 0 = some none := by
  obtain ⟨fuel, rfl⟩ := Nat.exists_eq_succ_of_ne_zero hfuel
  have hturn : k.attrsTurn (fuel + 1) (a + 0) (a, fun _ => none, false) = some (.inr (fun _ => none, false)) := by
    unfold attrsTurn
    dsimp only
    rw [if_neg (by omega)]
  unfold paraseP2pActionAttrs
  rw [Turns.run_leave hturn]
  rfl

theorem p2pElems_rest (h : k.Rest a) : k.p2pElems a = [] := by
  induction h with
  | gone h =>
    rw [p2pElems, if_neg (by unfold elemSize; omega)]
  | @skip a room other rest ih =>
    rw [p2pElems]
    by_cases hin : a + k.elemSize a ≤ k.len
    · rw [if_pos hin, if_neg fun hp2p => absurd (other hp2p) (by omega), ih]
    · rw [if_neg hin]

theorem p2pElems_cons (inside : a + k.elemSize a ≤ k.len) (p2p : k.P2pAt a) :
    k.p2pElems a = a :: k.p2pElems (a + k.elemSize a) := by
  rw [p2pElems, if_pos inside, if_pos p2p]

theorem row_prefix (h : k.Row a l) : l <+: k.p2pElems a := by
  induction h with
  | rest h => exact List.nil_prefix
  | last inside p2p short => exact List.nil_prefix
  | cons inside p2p room rest ih =>
    rw [p2pElems_cons inside p2p]
    exact List.prefix_cons_inj _ |>.mpr ih

theorem attrRow_le (h : AttrRow k stop a) : a = stop ∨ a + 3 ≤ stop := by
  induction h with
  | done => exact .inl rfl
  | cons rest ih =>
    unfold attrSize at ih
    omega

theorem row_whole (h : k.Row a l) (hrow : ElemRow k a) : l = k.p2pElems a := by
  induction h with
  | rest h => rw [p2pElems_rest h]
  | @last a inside p2p short =>
    have hsize : k.elemSize a = 2 + (k.mem (a + 1)).toNat := rfl
    cases hrow with
    | done => omega
    | cons attrs rest =>
      have hle := attrRow_le (attrs p2p.1)
      omega
  | @cons a l inside p2p room rest ih =>
    have hsize : k.elemSize a = 2 + (k.mem (a + 1)).toNat := rfl
    rw [p2pElems_cons inside p2p]
    cases hrow with
    | done => omega
    | cons attrs hrest => rw [ih hrest]

theorem firstOf_row {κ : P2pAttr} {x : Nat} (h : k.Row p2pVariable l)
    (hx : k.firstOf (l.flatMap k.elemAttrs) κ = some x) : k.firstOf k.p2pAttrs κ = some x := by
  obtain ⟨l', hl'⟩ := row_prefix h
  unfold p2pAttrs
  rw [← hl', List.flatMap_append, firstOf_append, hx]
  rfl

end P2pSkb

end AtbmWifi
