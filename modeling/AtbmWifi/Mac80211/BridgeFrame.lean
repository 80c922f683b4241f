import AtbmWifi.Mac80211.Bridge

/-!
# Frames in the station bridge

What `__vlan_hdr_del` and `__vlan_hdr_add` do to a frame: past the addresses nothing moves, and a frame whose
destination is replaced in between is the same otherwise.
-/

namespace AtbmWifi

open Memory

namespace BrSkb

variable {k k₂ : BrSkb}

/-- Where `ehdr` would have to be to read what follows the addresses: past an 802.1Q tag. -/
def l3 (k : BrSkb) : Nat := if k.hProto k.data = ethP8021q then k.data + 4 else k.data

theorem vlanHdrDel_tagged (h : k.hProto k.data = ethP8021q) (hlen : 4 ≤ k.len) :
    k.vlanHdrDel =
      (⟨move k.mem (k.data + 4) k.data 12, k.data + 4, k.len - 4⟩, some (read k.mem (k.data + 14) 2)) := by
  unfold vlanHdrDel pull
  rw [if_pos h]
  dsimp only
  rw [if_pos hlen]

theorem vlanHdrDel_untagged (h : k.hProto k.data ≠ ethP8021q) : k.vlanHdrDel = (k, none) := by
  unfold vlanHdrDel
  rw [if_neg h]

theorem vlanHdrDel_data (hlen : 4 ≤ k.len) : k.vlanHdrDel.1.data = k.l3 := by
  unfold l3
  by_cases h : k.hProto k.data = ethP8021q
  · rw [vlanHdrDel_tagged h hlen, if_pos h]
  · rw [vlanHdrDel_untagged h, if_neg h]

theorem vlanHdrDel_read {a n : Nat} (hlen : 4 ≤ k.len) (ha : k.l3 + 12 ≤ a) :
    read k.vlanHdrDel.1.mem a n = read k.mem a n := by
  unfold l3 at ha
  by_cases h : k.hProto k.data = ethP8021q
  · rw [if_pos h] at ha
    rw [vlanHdrDel_tagged h hlen]
    apply read_congr
    intro x hx _
    exact move_apart (.inr (by omega))
  · rw [vlanHdrDel_untagged h]

theorem vlanHdrDel_addr {i n : Nat} (hlen : 4 ≤ k.len) (hi : i + n ≤ 12) :
    read k.vlanHdrDel.1.mem (k.l3 + i) n = read k.mem (k.data + i) n := by
  unfold l3
  by_cases h : k.hProto k.data = ethP8021q
  · rw [if_pos h, vlanHdrDel_tagged h hlen]
    unfold Memory.read
    apply List.map_congr_left
    intro j hj
    have hlt := List.mem_range.mp hj
    have hmove : move k.mem (k.data + 4) k.data 12 (k.data + 4 + (i + j)) = k.mem (k.data + (i + j)) :=
      move_at (by omega)
    show move k.mem (k.data + 4) k.data 12 (k.data + 4 + i + j) = k.mem (k.data + i + j)
    rw [Nat.add_assoc (k.data + 4), Nat.add_assoc k.data i]
    exact hmove
  · rw [if_neg h, vlanHdrDel_untagged h]

theorem vlanHdrDel_hSource (hlen : 4 ≤ k.len) : k.vlanHdrDel.1.hSource k.l3 = k.hSource k.data :=
  Subtype.ext (vlanHdrDel_addr hlen (by omega))

structure SameRest (k k₂ : BrSkb) : Prop where
  data : k₂.data = k.data
  len : k₂.len = k.len
  mem : ∀ x, x < k.data ∨ k.data + 6 ≤ x → k₂.mem x = k.mem x

theorem SameRest.refl (k : BrSkb) : SameRest k k := ⟨rfl, rfl, fun _ _ => rfl⟩

theorem sameRest_store (k : BrSkb) {bs : List UInt8} (h : bs.length = 6) : SameRest k (k.store k.data bs) :=
  ⟨rfl, rfl, fun _ hx => write_apart (by omega)⟩

theorem hDest_store (k : BrSkb) (mac : EthAddr) : (k.store k.data mac.val).hDest k.data = mac := by
  apply Subtype.ext
  show read (write k.mem k.data mac.val) k.data 6 = mac.val
  have hself : read (write k.mem k.data mac.val) k.data mac.val.length = mac.val := read_write_self
  rwa [mac.property] at hself

theorem vlanHdrAdd_sameRest (hlen : 4 ≤ k.len) (h : SameRest k.vlanHdrDel.1 k₂) :
    SameRest k (k₂.vlanHdrAdd k.vlanHdrDel.2) ∧
      (k₂.vlanHdrAdd k.vlanHdrDel.2).hDest k.data = k₂.hDest k₂.data := by
  obtain ⟨hdata, hlen₂, hmem⟩ := h
  by_cases htag : k.hProto k.data = ethP8021q
  · rw [vlanHdrDel_tagged htag hlen] at hdata hlen₂ hmem ⊢
    have hback : k₂.data - 4 = k.data := by
      rw [hdata]
      exact Nat.add_sub_cancel _ _
    have hm : ∀ x, (k₂.vlanHdrAdd (some (read k.mem (k.data + 14) 2))).mem x =
        write (write (move k₂.mem k.data (k.data + 4) 12) (k.data + 12) ethP8021q) (k.data + 14)
          (read k.mem (k.data + 14) 2) x := by
      intro x
      unfold vlanHdrAdd push store
      dsimp only
      rw [hback]
    have hlow : ∀ i, i < 12 → (k₂.vlanHdrAdd (some (read k.mem (k.data + 14) 2))).mem (k.data + i) =
        k₂.mem (k.data + 4 + i) := by
      intro i hi
      rw [hm, write_apart (.inl (by omega)), write_apart (.inl (by omega)), move_at hi]
    refine ⟨⟨hback, ?_, fun x hx => ?_⟩, ?_⟩
    · show k₂.len + 4 = k.len
      rw [hlen₂]
      exact Nat.sub_add_cancel hlen
    · by_cases hfar : x < k.data ∨ k.data + 16 ≤ x
      · -- outside of the addresses and the tag
        rw [hm, write_apart (by rw [length_read]; omega), write_apart (by unfold ethP8021q; simp only [List.length]; omega),
          move_apart (by omega), hmem x (by omega)]
        exact move_apart (by omega)
      · obtain ⟨i, rfl⟩ := Nat.exists_eq_add_of_le (show k.data ≤ x by omega)
        by_cases haddr : i < 12
        · have hsame := hmem (k.data + 4 + i) (.inr (by omega))
          rw [hlow i haddr, hsame]
          exact move_at haddr
        · by_cases hproto : i < 14
          · have hi : k.data + i = k.data + 12 + (i - 12) := by omega
            have hread : (read k.mem (k.data + 12) 2).getD (i - 12) 0 = k.mem (k.data + 12 + (i - 12)) :=
              getD_read (by omega)
            have htag : read k.mem (k.data + 12) 2 = ethP8021q := htag
            rw [htag] at hread
            have hsmall : i - 12 < ethP8021q.length := by
              unfold ethP8021q
              simp only [List.length]
              omega
            rw [hm, write_apart (.inl (by omega)), hi, write_at hsmall, hread]
          · have hi : k.data + i = k.data + 14 + (i - 14) := by omega
            have hsmall : i - 14 < (read k.mem (k.data + 14) 2).length := by
              rw [length_read]
              omega
            rw [hm, hi, write_at hsmall, getD_read (by omega)]
    · apply Subtype.ext
      show read _ k.data 6 = read k₂.mem k₂.data 6
      rw [hdata]
      unfold Memory.read
      apply List.map_congr_left
      intro i hi
      have hlt := List.mem_range.mp hi
      exact hlow i (by omega)
  · rw [vlanHdrDel_untagged htag] at hdata hlen₂ hmem ⊢
    exact ⟨⟨hdata, hlen₂, hmem⟩, by rw [hdata]; rfl⟩

end BrSkb

end AtbmWifi
