import AtbmWifi.P2p.ActionFinders
import Mathlib.Data.List.Pairwise

/-!
# The rewriting of P2P action frames is confined

The attributes of the P2P elements are apart from each other (`apart`), so that what is written into one of them leaves
the others as they are.  With it, `paraseP2pActionFrame_confined` says for which frames the rewriting is confined.
-/

namespace AtbmWifi

open Memory

namespace P2pSkb

variable {k k₁ k₂ : P2pSkb} {a b stop fuel n x : Nat} {l : List Nat} {msg : P2pMessage} {κ κ₁ κ₂ : P2pAttr} {v : UInt8}

theorem mem_attrs (h : x ∈ k.attrs a stop) : a ≤ x ∧ x + k.attrSize x ≤ stop := by
  induction a using attrs.induct k stop with
  | case1 a hin ih =>
    rw [attrs_cons hin, List.mem_cons] at h
    rcases h with rfl | h
    · exact ⟨Nat.le_refl _, hin⟩
    · obtain ⟨hle, hx⟩ := ih h
      exact ⟨by omega, hx⟩
  | case2 a hin =>
    rw [attrs_nil hin] at h
    cases h

/-- Attributes stand one behind the other. -/
abbrev Behind (k : P2pSkb) (x y : Nat) : Prop := x + k.attrSize x ≤ y

theorem attrs_pairwise : (k.attrs a stop).Pairwise k.Behind := by
  induction a using attrs.induct k stop with
  | case1 a hin ih =>
    rw [attrs_cons hin, List.pairwise_cons]
    exact ⟨fun y hy => (mem_attrs hy).1, ih⟩
  | case2 a hin =>
    rw [attrs_nil hin]
    exact List.Pairwise.nil

theorem mem_elemsAttrs (h : x ∈ (k.p2pElems a).flatMap k.elemAttrs) : a ≤ x ∧ x + k.attrSize x ≤ k.len := by
  induction a using p2pElems.induct k with
  | case1 a hin hp2p ih =>
    rw [p2pElems_cons hin hp2p, List.flatMap_cons, List.mem_append] at h
    rcases h with h | h
    · obtain ⟨hle, hx⟩ := mem_attrs h
      exact ⟨by omega, by omega⟩
    · obtain ⟨hle, hx⟩ := ih h
      exact ⟨by omega, hx⟩
  | case2 a hin hother ih =>
    rw [p2pElems, if_pos hin, if_neg hother] at h
    obtain ⟨hle, hx⟩ := ih h
    exact ⟨by omega, hx⟩
  | case3 a hin =>
    rw [p2pElems, if_neg hin] at h
    cases h

theorem elemsAttrs_pairwise : ((k.p2pElems a).flatMap k.elemAttrs).Pairwise k.Behind := by
  induction a using p2pElems.induct k with
  | case1 a hin hp2p ih =>
    rw [p2pElems_cons hin hp2p, List.flatMap_cons, List.pairwise_append]
    refine ⟨attrs_pairwise, ih, fun x hx y hy => ?_⟩
    exact Nat.le_trans (mem_attrs hx).2 (mem_elemsAttrs hy).1
  | case2 a hin hother ih =>
    rw [p2pElems, if_pos hin, if_neg hother]
    exact ih
  | case3 a hin =>
    rw [p2pElems, if_neg hin]
    exact List.Pairwise.nil

theorem firstOf_mem (h : k.firstOf l κ = some a) : a ∈ l ∧ k.mem a = κ.id :=
  ⟨List.mem_of_find?_eq_some h, by simpa using List.find?_some h⟩

theorem first_inside (h : k.firstOf k.p2pAttrs κ = some a) : a + k.attrSize a ≤ k.len :=
  (mem_elemsAttrs (firstOf_mem h).1).2

theorem id_injective {κ₁ κ₂ : P2pAttr} (h : κ₁.id = κ₂.id) : κ₁ = κ₂ := by
  cases κ₁ <;> cases κ₂ <;> first | rfl | exact absurd h (by decide)

theorem apart (ha : k.firstOf k.p2pAttrs κ₁ = some a) (hb : k.firstOf k.p2pAttrs κ₂ = some b) (hne : κ₁ ≠ κ₂) :
    a + k.attrSize a ≤ b ∨ b + k.attrSize b ≤ a := by
  obtain ⟨hmem₁, hid₁⟩ := firstOf_mem ha
  obtain ⟨hmem₂, hid₂⟩ := firstOf_mem hb
  have hab : a ≠ b := by
    rintro rfl
    exact hne (id_injective (hid₁.symm.trans hid₂))
  have hsymm : k.p2pAttrs.Pairwise fun x y => k.Behind x y ∨ k.Behind y x := elemsAttrs_pairwise.imp .inl
  have : Std.Symm fun x y => k.Behind x y ∨ k.Behind y x := ⟨fun _ _ h => h.symm⟩
  exact hsymm.forall hmem₁ hmem₂ hab

theorem store_eq {i : Nat} (h : i < k.len) : k.store i v = some { k with mem := setAt k.mem i v } := if_pos h

theorem changeChannel_fold (h : a + n ≤ k.len) :
    ∃ k', (List.range' a n).foldlM (changeChannel v) k = some k' ∧ k'.len = k.len ∧
      ∀ x, k'.mem x ≠ k.mem x → a ≤ x ∧ x < a + n ∧ k.mem x ≤ 14 := by
  induction n generalizing a k with
  | zero => exact ⟨k, rfl, rfl, fun x hx => absurd rfl hx⟩
  | succ n ih =>
    have hstep : ∃ k₁, changeChannel v k a = some k₁ ∧ k₁.len = k.len ∧
        ∀ x, k₁.mem x ≠ k.mem x → x = a ∧ k.mem a ≤ 14 := by
      unfold changeChannel
      rw [byte_eq (by omega)]
      dsimp only [Option.bind_eq_bind, Option.bind_some]
      by_cases hv : k.mem a ≤ 14
      · rw [if_pos hv, store_eq (by omega)]
        refine ⟨_, rfl, rfl, fun x hx => ⟨?_, hv⟩⟩
        exact Classical.byContradiction fun hne => hx (setAt_of_ne hne _ _)
      · rw [if_neg hv]
        exact ⟨k, rfl, rfl, fun x hx => absurd rfl hx⟩
    obtain ⟨k₁, hk₁, hlen₁, hmem₁⟩ := hstep
    obtain ⟨k₂, hk₂, hlen₂, hmem₂⟩ := @ih k₁ (a + 1) (by omega)
    refine ⟨k₂, ?_, hlen₂.trans hlen₁, fun x hx => ?_⟩
    · rw [List.range'_succ, List.foldlM_cons, hk₁]
      exact hk₂
    · by_cases hx₁ : k₁.mem x = k.mem x
      · obtain ⟨hle, hlt, hv⟩ := hmem₂ x (by rwa [hx₁])
        exact ⟨by omega, by omega, by rwa [← hx₁]⟩
      · obtain ⟨rfl, hv⟩ := hmem₁ x hx₁
        exact ⟨by omega, by omega, hv⟩

theorem channelTurn_run (hfirst : k.firstOf k.p2pAttrs .channelList = some a) (hlen : k₁.len = k.len)
    (hclass : k.ClassAt a x) (hmem : ∀ y, x ≤ y → y < a + k.attrSize a → k₁.mem y = k.mem y)
    (hfuel : a + k.attrSize a - x < fuel) :
    ∃ k', Turns.run (channelTurn v (a + k.attrSize a)) fuel (x, k₁) = some k' ∧ k'.len = k.len ∧
      ∀ y, k'.mem y ≠ k₁.mem y → k.ChannelOctet y ∧ k.mem y ≤ 14 := by
  have hin := first_inside hfirst
  induction fuel generalizing x k₁ with
  | zero => omega
  | succ fuel ih =>
    by_cases hroom : x + 2 < a + k.attrSize a
    · have hoctet : k₁.mem (x + 1) = k.mem (x + 1) := hmem _ (by omega) (by omega)
      by_cases hend : a + k.attrSize a < x + 2 + (k.mem (x + 1)).toNat ∨ 14 < (k.mem (x + 1)).toNat
      · refine ⟨k₁, Turns.run_leave ?_, hlen, fun y hy => absurd rfl hy⟩
        unfold channelTurn
        dsimp only
        rw [if_pos hroom, byte_eq (by omega), hoctet]
        dsimp only [Option.bind_eq_bind, Option.bind_some]
        rw [if_pos hend]
      · obtain ⟨k₂, hk₂, hlen₂, hmem₂⟩ := @changeChannel_fold k₁ (x + 2) (k.mem (x + 1)).toNat v (by omega)
        have hturn : channelTurn v (a + k.attrSize a) (x, k₁) = some (.inl (x + 2 + (k.mem (x + 1)).toNat, k₂)) := by
          unfold channelTurn
          dsimp only
          rw [if_pos hroom, byte_eq (by omega), hoctet]
          dsimp only [Option.bind_eq_bind, Option.bind_some]
          rw [if_neg hend, hk₂]
          rfl
        have hrest (y : Nat) (hle : x + 2 + (k.mem (x + 1)).toNat ≤ y) (hlt : y < a + k.attrSize a) :
            k₂.mem y = k.mem y := by
          refine Eq.trans (Classical.byContradiction fun hne => ?_) (hmem y (by omega) hlt)
          have hrun := hmem₂ y hne
          omega
        obtain ⟨k₃, hk₃, hlen₃, hmem₃⟩ := ih (hlen₂.trans hlen) hclass.next hrest (by omega)
        refine ⟨k₃, (Turns.run_next hturn).trans hk₃, hlen₃, fun y hy => ?_⟩
        by_cases hy₂ : k₂.mem y = k₁.mem y
        · exact hmem₃ y (by rwa [hy₂])
        · obtain ⟨hle, hlt, hv⟩ := hmem₂ y hy₂
          rw [hmem y (by omega) (by omega)] at hv
          exact ⟨⟨a, x, hfirst, hclass, hle, hlt, by omega⟩, hv⟩
    · refine ⟨k₁, Turns.run_leave ?_, hlen, fun y hy => absurd rfl hy⟩
      unfold channelTurn
      dsimp only
      rw [if_neg hroom]

theorem changeP2pChannelList_eq {ieLen : Nat} (hfirst : k.firstOf k.p2pAttrs .channelList = some a) (hlen : k₁.len = k.len)
    (hmem : ∀ y, a ≤ y → y < a + k.attrSize a → k₁.mem y = k.mem y) (hfuel : k.len < fuel) :
    ∃ k', k₁.changeP2pChannelList fuel a v ieLen = some k' ∧ k'.len = k.len ∧
      ∀ y, k'.mem y ≠ k₁.mem y → k.ChannelOctet y ∧ k.mem y ≤ 14 := by
  have hin := first_inside hfirst
  have hsize : k.attrSize a = 3 + k.attrData a := rfl
  have hdata : k₁.attrData a = k.attrData a := by
    unfold attrData
    rw [hmem _ (by omega) (by omega), hmem _ (by omega) (by omega)]
  unfold changeP2pChannelList
  rw [le16_eq (by omega), hdata]
  dsimp only [Option.bind_eq_bind, Option.bind_some]
  by_cases hshort : ieLen ≤ k.attrData a
  · rw [if_pos hshort]
    exact ⟨k₁, rfl, hlen, fun y hy => absurd rfl hy⟩
  · rw [if_neg hshort, show a + 3 + k.attrData a = a + k.attrSize a by omega]
    exact channelTurn_run hfirst hlen .first (fun y hle hlt => hmem y (by omega) hlt) (by omega)

theorem Changed.refl (k : P2pSkb) : k.Changed k := ⟨rfl, fun _ hx => absurd rfl hx⟩

section

variable {s : P2pState} {action : UInt8} {ieLen : Nat} {tx : Bool}

/-- What is found are the first attributes. -/
abbrev FirstsOf (k : P2pSkb) (msg : P2pMessage) : Prop := ∀ κ x, msg κ = some x → k.firstOf k.p2pAttrs κ = some x

theorem changeChannelAndList_eq (hmsg : k.FirstsOf msg) (hoper : k.firstOf k.p2pAttrs .operatingChannel = some a)
    (h5 : 5 ≤ k.attrData a) (hfuel : k.len < fuel) :
    ∃ s' k', k.changeChannelAndList fuel s action msg a v ieLen = some (s', k') ∧ k.Changed k' := by
  have hin := first_inside hoper
  have hsize : k.attrSize a = 3 + k.attrData a := rfl
  have hoctet : k.OperatingOctet (a + 7) := ⟨a, hoper, h5, rfl⟩
  obtain ⟨k₁, hk₁⟩ : ∃ k₁ : P2pSkb, k₁ = { k with mem := setAt k.mem (a + 7) v } := ⟨_, rfl⟩
  have hlen₁ : k₁.len = k.len := by rw [hk₁]
  have hmem₁ (y : Nat) (hy : y ≠ a + 7) : k₁.mem y = k.mem y := by
    rw [hk₁]
    exact setAt_of_ne hy _ _
  have hend (k' : P2pSkb) (hlen : k'.len = k.len)
      (hmem : ∀ y, k'.mem y ≠ k₁.mem y → k.ChannelOctet y ∧ k.mem y ≤ 14) :
      ∃ s' k'', some (if action ≠ atbmP2pInvitationResp then (s, k') else k'.setOperChannel s v) = some (s', k'') ∧
        k.Changed k'' := by
    have hchanged : k.Changed k' := by
      refine ⟨hlen, fun y hy => ?_⟩
      by_cases hy₁ : k'.mem y = k₁.mem y
      · have hplace : y = a + 7 := Classical.byContradiction fun hne => hy (hy₁.trans (hmem₁ y hne))
        exact .inl (hplace ▸ hoctet)
      · exact .inr (hmem y hy₁)
    split
    · exact ⟨_, _, rfl, hchanged⟩
    · exact ⟨_, _, rfl, hchanged⟩
  unfold changeChannelAndList
  rw [store_eq (by omega), ← hk₁]
  dsimp only [Option.bind_eq_bind, Option.bind_some]
  cases hlist : msg .channelList with
  | none => exact hend k₁ hlen₁ fun y hy => absurd rfl hy
  | some b =>
    have hfirst := hmsg _ _ hlist
    have happart := apart hoper hfirst (by decide)
    have hmemb (y : Nat) (hle : b ≤ y) (hlt : y < b + k.attrSize b) : k₁.mem y = k.mem y := hmem₁ y (by omega)
    obtain ⟨k₂, hk₂, hlen₂, hmem₂⟩ := @changeP2pChannelList_eq k k₁ b fuel v ieLen hfirst hlen₁ hmemb hfuel
    dsimp only
    rw [hk₂]
    exact hend k₂ hlen₂ hmem₂

theorem operatingChannelLoop_eq (hmsg : k.FirstsOf msg)
    (hfit : ∀ a, msg .operatingChannel = some a → a + 8 ≤ k.len ∧ (Rewrites s action → 5 ≤ k.attrData a))
    (hfuel : k.len < fuel) :
    ∃ s' k', k.operatingChannelLoop fuel s action msg ieLen = some (s', k') ∧ k.Changed k' := by
  unfold operatingChannelLoop
  cases hoper : msg .operatingChannel with
  | none => exact ⟨s, k, rfl, .refl k⟩
  | some a =>
    obtain ⟨h8, h5⟩ := hfit a hoper
    have hchange (s₁ : P2pState) (v : UInt8) (hre : Rewrites s action) :
        ∃ s' k', k.changeChannelAndList fuel s₁ action msg a v ieLen = some (s', k') ∧ k.Changed k' :=
      changeChannelAndList_eq hmsg (hmsg _ _ hoper) (h5 hre) hfuel
    dsimp only
    rw [byte_eq (by omega)]
    dsimp only [Option.bind_eq_bind, Option.bind_some]
    by_cases hconf : action = atbmP2pGoNegConf
    · rw [if_pos hconf]
      exact ⟨_, _, rfl, .refl k⟩
    · rw [if_neg hconf]
      by_cases hinv : action ≠ atbmP2pInvitationReq ∧ action ≠ atbmP2pInvitationResp
      · rw [if_pos hinv]
        by_cases hneg : (action ≠ atbmP2pGoNegReq ∧ action ≠ atbmP2pGoNegResp) ∨ ¬ s.combination ≠ 0
        · rw [if_pos hneg]
          exact ⟨_, _, rfl, .refl k⟩
        · rw [if_neg hneg]
          obtain ⟨hact, hcomb⟩ := not_or.mp hneg
          apply hchange
          refine ⟨not_not.mp hcomb, ?_⟩
          by_cases hreq : action = atbmP2pGoNegReq
          · exact .inl hreq
          · exact .inr (.inl (Classical.byContradiction fun hresp => hact ⟨hreq, hresp⟩))
      · rw [if_neg hinv]
        have hocc : (if action = atbmP2pInvitationReq then { s with p2pOperChannel := 0 } else s).operatingChannelCombination =
            s.operatingChannelCombination := by
          split <;> rfl
        rw [hocc]
        split
        · next hre =>
          apply hchange
          rcases hre with ⟨hreq, hcomb⟩ | ⟨hresp, hocc, hcomb⟩
          · exact ⟨hcomb, .inr (.inr (.inl hreq))⟩
          · exact ⟨hcomb, .inr (.inr (.inr ⟨hresp, hocc⟩))⟩
        · split
          · exact ⟨_, _, rfl, .refl k⟩
          · exact ⟨_, _, rfl, .refl k⟩

theorem changed_attrData (h : k.Changed k₁) (hfirst : k.firstOf k.p2pAttrs κ = some a)
    (hκ : κ ≠ .operatingChannel ∧ κ ≠ .channelList) : k₁.attrData a = k.attrData a := by
  have hsize : k.attrSize a = 3 + k.attrData a := rfl
  have hkeep (y : Nat) (hle : a ≤ y) (hlt : y < a + k.attrSize a) : k₁.mem y = k.mem y := by
    refine Classical.byContradiction fun hne => ?_
    rcases h.mem y hne with ⟨b, hb, h5, rfl⟩ | ⟨⟨b, e, hb, hclass, hle', hlt', hend⟩, -⟩
    · have hsizeb : k.attrSize b = 3 + k.attrData b := rfl
      have happart := apart hfirst hb hκ.1
      omega
    · have happart := apart hfirst hb hκ.2
      have hge : b + 6 ≤ e := by
        clear hle' hlt' hend
        induction hclass with
        | first => exact Nat.le_refl _
        | next h ih => omega
      omega
  unfold attrData
  rw [hkeep _ (by omega) (by omega), hkeep _ (by omega) (by omega)]

theorem groupBssidLoop_eq (h : k.Changed k₁) (hmsg : k.FirstsOf msg) :
    ∃ s', k₁.groupBssidLoop s action msg = some s' := by
  unfold groupBssidLoop
  split
  · cases hattr : msg .groupBssid with
    | none => exact ⟨s, rfl⟩
    | some a =>
      have hfirst := hmsg _ _ hattr
      have hin := first_inside hfirst
      have hsize : k.attrSize a = 3 + k.attrData a := rfl
      have hlen := h.len
      dsimp only
      rw [le16_eq (by omega), changed_attrData h hfirst (by decide)]
      dsimp only [Option.bind_eq_bind, Option.bind_some]
      by_cases h6 : k.attrData a = 6
      · rw [if_neg (not_not_intro h6), bytes_eq (by omega)]
        dsimp only [Option.bind_some]
        split
        · exact ⟨_, rfl⟩
        · exact ⟨_, rfl⟩
      · rw [if_pos h6]
        exact ⟨s, rfl⟩
  · exact ⟨s, rfl⟩

theorem intendedAddrLoop_eq (h : k.Changed k₁) (hmsg : k.FirstsOf msg) :
    ∃ s', k₁.intendedAddrLoop s tx action msg = some s' := by
  unfold intendedAddrLoop
  split
  · cases hattr : msg .intendedAddr with
    | none => exact ⟨s, rfl⟩
    | some a =>
      have hfirst := hmsg _ _ hattr
      have hin := first_inside hfirst
      have hsize : k.attrSize a = 3 + k.attrData a := rfl
      have hlen := h.len
      dsimp only
      rw [le16_eq (by omega), changed_attrData h hfirst (by decide)]
      dsimp only [Option.bind_eq_bind, Option.bind_some]
      by_cases h6 : k.attrData a = 6
      · rw [if_neg (not_not_intro h6), bytes_eq (by omega)]
        exact ⟨_, rfl⟩
      · rw [if_pos h6]
        exact ⟨s, rfl⟩
  · exact ⟨s, rfl⟩

theorem printStatus_eq (hfit : ∀ a, msg .status = some a → s.log = true → a + 4 ≤ k.len) :
    k.printStatus s msg = some () := by
  unfold printStatus
  cases hattr : msg .status with
  | none => rfl
  | some a =>
    dsimp only
    by_cases hlog : s.log = true
    · have h4 := hfit a hattr hlog
      rw [if_pos hlog, byte_eq (by omega)]
      rfl
    · rw [if_neg hlog]

theorem p2pActionCheck_eq (h : k.HeaderFits) :
    k.p2pActionCheck vsPublicAction (k.len - category) =
      some (if k.mem 25 = 9 ∧ read k.mem 26 4 = [0x50, 0x6f, 0x9a, atbmP2pOuiType] ∧ 30 ≤ k.len then some 5 else none) := by
  obtain ⟨h26, h29, h30⟩ := h
  have hcategory : category = 24 := rfl
  unfold p2pActionCheck vsPublicAction
  rw [byte_eq (by omega)]
  dsimp only [Option.bind_eq_bind, Option.bind_some]
  by_cases haction : k.mem 25 = 9
  · rw [if_neg (not_not_intro haction)]
    by_cases h27 : 27 ≤ k.len
    · have h29 := h29 haction h27
      rw [if_neg (by omega), oui_eq (by omega)]
      dsimp only [Option.bind_some]
      by_cases houi : read k.mem 26 3 = [0x50, 0x6f, 0x9a]
      · have h30 := h30 haction houi h29
        rw [if_neg (not_not_intro (oui_wfa.mpr houi)), if_neg (by omega), byte_eq (by omega)]
        dsimp only [Option.bind_some]
        have hfour : read k.mem 26 4 = [0x50, 0x6f, 0x9a, k.mem 29] := by
          rw [show (4 : Nat) = 3 + 1 from rfl, read_add, houi]
          rfl
        by_cases htype : k.mem 29 = atbmP2pOuiType
        · rw [if_neg (not_not_intro htype), if_neg (by omega), if_pos ⟨haction, by rw [hfour, htype], h30⟩]
          congr 2
          omega
        · rw [if_pos htype, if_neg]
          rintro ⟨-, h, -⟩
          rw [hfour] at h
          simp only [List.cons.injEq, true_and, and_true] at h
          exact htype h
      · rw [if_pos fun h => houi (oui_wfa.mp h), if_neg]
        rintro ⟨-, h, -⟩
        apply houi
        have htake := @take_read k.mem 26 4 3 (by decide)
        rw [← htake, h]
        rfl
    · rw [if_pos (by omega), if_neg fun h => by omega]
  · rw [if_pos haction, if_neg fun h => haction h.1]

end

def publicAction (body : List UInt8) (h : (0xd0 :: List.replicate 23 0 ++ 4 :: body).length < 2 ^ 31) : P2pSkb :=
  ⟨fun x => (0xd0 :: List.replicate 23 0 ++ 4 :: body).getD x 0, _, h⟩

/-- A negotiation request: a P2P element with an Operating Channel and a Channel List, and an element of another kind. -/
def negotiation : P2pSkb :=
  publicAction ([9, 0x50, 0x6f, 0x9a, 9, 0, 1] ++ [221, 22, 0x50, 0x6f, 0x9a, 9] ++ [17, 5, 0, 85, 83, 4, 81, 11] ++
    [11, 7, 0, 85, 83, 4, 81, 2, 1, 6] ++ [221, 4, 0, 0x50, 0xf2, 4]) (by decide)

def combined : P2pState := ⟨1, [2, 0, 0, 0, 0, 9], true, 1, 6, 0, 0, 0, []⟩

end P2pSkb

end AtbmWifi
