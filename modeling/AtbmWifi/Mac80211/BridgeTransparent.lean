import AtbmWifi.Mac80211.BridgeTx

/-!
# When the bridge is transparent

`brigdeChangeTxhdr_eq` takes the tag out of the way: the frame is restored and what the table update stored stands at its
place.  From there on the cases are those of the end of the function, and the patch of the UDP checksum is
`OnesComplement.patched`.
-/

namespace AtbmWifi

open Memory OnesComplement BrSkb

namespace BrSkb

variable {k : BrSkb}

theorem vlan_roundtrip (hlen : 4 ≤ k.len) : k.vlanHdrDel.1.vlanHdrAdd k.vlanHdrDel.2 = k := by
  obtain ⟨⟨hdata, hlen', hmem⟩, hdest⟩ := vlanHdrAdd_sameRest hlen (SameRest.refl k.vlanHdrDel.1)
  have hfirst : k.vlanHdrDel.1.hDest k.vlanHdrDel.1.data = k.hDest k.data := by
    apply Subtype.ext
    rw [vlanHdrDel_data hlen]
    exact vlanHdrDel_addr (i := 0) hlen (by omega)
  rw [hfirst] at hdest
  have hread := congrArg Subtype.val hdest
  generalize k.vlanHdrDel.1.vlanHdrAdd k.vlanHdrDel.2 = r at *
  have hall : r.mem = k.mem := by
    funext x
    by_cases hx : x < k.data ∨ k.data + 6 ≤ x
    · exact hmem x hx
    · obtain ⟨i, rfl⟩ := Nat.exists_eq_add_of_le (show k.data ≤ x by omega)
      have hi : i < 6 := by omega
      have hget := congrArg (fun l => l.getD i 0) hread
      change (read r.mem k.data 6).getD i 0 = (read k.mem k.data 6).getD i 0 at hget
      rwa [getD_read hi, getD_read hi] at hget
  obtain ⟨mem, data, len⟩ := r
  obtain rfl : mem = k.mem := hall
  obtain rfl : data = k.data := hdata
  obtain rfl : len = k.len := hlen'
  rfl

theorem vlanHdrAdd_store {a : Nat} (ha : k.data + 12 ≤ a) (bs : List UInt8) {v : Option (List UInt8)}
    (hv : ∀ t, v = some t → t.length = 2 ∧ 4 ≤ k.data) : (k.store a bs).vlanHdrAdd v = (k.vlanHdrAdd v).store a bs := by
  cases v with
  | none => rfl
  | some tci =>
    obtain ⟨htci, hdata⟩ := hv tci rfl
    have hproto : ethP8021q.length = 2 := rfl
    have hmove : move (write k.mem a bs) (k.data - 4) k.data 12 = write (move k.mem (k.data - 4) k.data 12) a bs := by
      unfold move
      rw [read_write_apart (.inl ha), write_comm (.inr (by rw [length_read]; omega))]
    have hback : k.data - 4 + 4 = k.data := Nat.sub_add_cancel hdata
    have htype : k.data - 4 + 12 + ethP8021q.length ≤ a := by omega
    have htag : k.data - 4 + 14 + tci.length ≤ a := by omega
    unfold vlanHdrAdd push store
    dsimp only
    rw [hback, hmove, write_comm (.inr htype), write_comm (.inr htag)]

theorem vlanHdrDel_fields (hlen : 4 ≤ k.len) :
    k.vlanHdrDel.1.hProto k.l3 = k.hProto k.l3 ∧ k.vlanHdrDel.1.arPro k.l3 = k.arPro k.l3 ∧
      k.vlanHdrDel.1.srcIpaddr k.l3 = k.srcIpaddr k.l3 :=
  ⟨vlanHdrDel_read hlen (by omega), vlanHdrDel_read hlen (by omega), vlanHdrDel_read hlen (by omega)⟩

theorem vlanHdrDel_len (hlen : 4 ≤ k.len) : k.vlanHdrDel.1.data + k.vlanHdrDel.1.len = k.data + k.len := by
  by_cases h : k.hProto k.data = ethP8021q
  · rw [vlanHdrDel_tagged h hlen]
    show k.data + 4 + (k.len - 4) = k.data + k.len
    omega
  · rw [vlanHdrDel_untagged h]

theorem vlanHdrDel_tag (hlen : 4 ≤ k.len) {t : List UInt8} (h : k.vlanHdrDel.2 = some t) :
    t.length = 2 ∧ 4 ≤ k.vlanHdrDel.1.data := by
  by_cases htag : k.hProto k.data = ethP8021q
  · rw [vlanHdrDel_tagged htag hlen] at h ⊢
    obtain rfl := Option.some.inj h
    exact ⟨length_read _ _ _, by show 4 ≤ k.data + 4; omega⟩
  · rw [vlanHdrDel_untagged htag] at h
    cases h

theorem l3_ge (k : BrSkb) : k.data ≤ k.l3 ∧ k.l3 ≤ k.data + 4 := by
  unfold l3
  split <;> omega

end BrSkb

section

variable {hz : Nat} {env : BrEnv} {k : BrSkb} {p : NetwifiSBridge}

theorem brigdeHashUpdate_frame (hz : Nat) (env : BrEnv) (k : BrSkb) (p : NetwifiSBridge) :
    (p.brigdeHashUpdate hz env k).2 =
      (if k.ArpReplaced then k.store (k.data + 22) env.devAddr.val else k, decide (¬ k.Refused)) := by
  have hne : ethPIp ≠ ethPArp := by decide
  unfold NetwifiSBridge.brigdeHashUpdate
  dsimp only
  by_cases hip : k.hProto k.data = ethPIp
  · have harp : ¬ k.ArpReplaced := fun h => hne (hip.symm.trans h.1)
    rw [if_pos hip, if_neg harp]
    by_cases hihl : k.data + 14 + 4 * k.ihl k.data ≥ k.data + 14 + k.len
    · have hrefused : k.Refused := .inl ⟨hip, by omega⟩
      rw [if_pos hihl, decide_eq_false (not_not_intro hrefused)]
    · have hfine : ¬ k.Refused := by
        rintro (⟨-, h⟩ | ⟨h, -⟩)
        · omega
        · exact hne (hip.symm.trans h)
      rw [if_neg hihl, decide_eq_true hfine]
      split <;> rfl
  · rw [if_neg hip]
    by_cases harp : k.hProto k.data = ethPArp
    · rw [if_pos harp]
      by_cases hpro : k.arPro k.data = ethPIp
      · have hfine : ¬ k.Refused := by
          rintro (⟨h, -⟩ | ⟨-, h⟩)
          · exact hip h
          · exact h hpro
        rw [if_neg (not_not_intro hpro), decide_eq_true hfine]
        by_cases hzero : k.srcIpaddr k.data = zeroIp
        · rw [if_pos hzero, if_neg fun h => h.2.2 hzero]
        · have hreplaced : k.ArpReplaced := ⟨harp, hpro, hzero⟩
          rw [if_neg hzero, if_pos hreplaced]
      · have hrefused : k.Refused := .inr ⟨harp, hpro⟩
        have hnot : ¬ k.ArpReplaced := fun h => hpro h.2.1
        rw [if_pos hpro, if_neg hnot, decide_eq_false (not_not_intro hrefused)]
    · have hfine : ¬ k.Refused := by
        rintro (⟨h, -⟩ | ⟨h, -⟩)
        · exact hip h
        · exact harp h
      have hnot : ¬ k.ArpReplaced := fun h => harp h.1
      rw [if_neg harp, if_neg hnot, decide_eq_true hfine]

/-- The frame and the table before `__vlan_hdr_add`, and whether there is no error. -/
def txUpdated (hz : Nat) (env : BrEnv) (k : BrSkb) (p : NetwifiSBridge) : NetwifiSBridge × BrSkb × Bool :=
  let f := p.txFast env.jiffies k.data k.vlanHdrDel.1
  if f.2 = true then f.1.brigdeHashUpdate hz env k.vlanHdrDel.1 else (f.1, k.vlanHdrDel.1, true)

/-- The end of `ieee80211_brigde_change_txhdr`, with the table. -/
def txEnd (env : BrEnv) (p : NetwifiSBridge) (k : BrSkb) : NetwifiSBridge × BrSkb × Bool :=
  let p := if k.hSource k.data = p.brMac ∧ k.hProto k.data = ethPIp then { p with brIp := k.saddr k.data } else p
  if k.hDest k.data = env.devAddr then (p, k, true)
  else if k.hSource k.data ≠ env.devAddr then (p, (k.store (k.data + 6) env.devAddr.val).setDhcpBcastFlag, true)
  else (p, k, true)

theorem txEnd_frame (env : BrEnv) (p : NetwifiSBridge) (k : BrSkb) : (txEnd env p k).2 = (txFrame env k, true) := by
  unfold txEnd txFrame
  dsimp only
  by_cases hdest : k.hDest k.data = env.devAddr
  · rw [if_pos hdest, if_pos hdest]
  · rw [if_neg hdest, if_neg hdest]
    split <;> rfl

theorem brigdeChangeTxhdr_updated (hz : Nat) (p : NetwifiSBridge) (hport : env.brPort = true) (hcopy : env.copyFails = false) :
    (p.brigdeChangeTxhdr hz env k).2 =
      if (txUpdated hz env k p).2.2 = false then ((txUpdated hz env k p).2.1, false)
      else (txFrame env ((txUpdated hz env k p).2.1.vlanHdrAdd k.vlanHdrDel.2), true) := by
  unfold NetwifiSBridge.brigdeChangeTxhdr
  rw [if_neg (by simp [hport]), if_neg (by simp [hcopy])]
  change (if (txUpdated hz env k p).2.2 = false then ((txUpdated hz env k p).1, (txUpdated hz env k p).2.1, false)
    else txEnd env (txUpdated hz env k p).1 ((txUpdated hz env k p).2.1.vlanHdrAdd k.vlanHdrDel.2)).2 = _
  by_cases hok : (txUpdated hz env k p).2.2 = false
  · rw [if_pos hok, if_pos hok]
  · rw [if_neg hok, if_neg hok, txEnd_frame]

theorem txUpdated_eq (hz : Nat) (env : BrEnv) (k : BrSkb) (p : NetwifiSBridge) :
    (txUpdated hz env k p).2 =
      (if Inserts env k p ∧ k.vlanHdrDel.1.ArpReplaced then
        k.vlanHdrDel.1.store (k.vlanHdrDel.1.data + 22) env.devAddr.val else k.vlanHdrDel.1,
        decide (¬ TxRefused env k p)) := by
  unfold txUpdated
  by_cases hins : Inserts env k p
  · dsimp only
    rw [if_pos (show _ = true from hins), brigdeHashUpdate_frame]
    have hrefused : TxRefused env k p ↔ k.vlanHdrDel.1.Refused := ⟨fun h => h.2, fun h => ⟨hins, h⟩⟩
    simp only [hins, hrefused, true_and]
  · have hrefused : ¬ TxRefused env k p := fun h => hins h.1
    dsimp only
    rw [if_neg (show ¬ _ = true from hins), if_neg fun h => hins h.1, decide_eq_true hrefused]

/-- **The translation without the tag.** -/
theorem brigdeChangeTxhdr_eq (hz : Nat) (p : NetwifiSBridge) (hport : env.brPort = true) (hcopy : env.copyFails = false)
    (hlen : 4 ≤ k.len) :
    (p.brigdeChangeTxhdr hz env k).2 =
      if TxRefused env k p then (k.vlanHdrDel.1, false) else (txFrame env (txInserted env k p), true) := by
  rw [brigdeChangeTxhdr_updated hz p hport hcopy, txUpdated_eq]
  dsimp only
  by_cases hrefused : TxRefused env k p
  · have hnot : ¬ (Inserts env k p ∧ k.vlanHdrDel.1.ArpReplaced) := by
      rintro ⟨-, harp, hpro, -⟩
      rcases hrefused.2 with ⟨hip, -⟩ | ⟨-, h⟩
      · exact absurd (hip.symm.trans harp) (by decide)
      · exact h hpro
    rw [if_pos (decide_eq_false (not_not_intro hrefused)), if_pos hrefused, if_neg hnot]
  · rw [if_neg (by simp [hrefused]), if_neg hrefused]
    unfold txInserted
    by_cases harp : Inserts env k p ∧ k.vlanHdrDel.1.ArpReplaced
    · rw [if_pos harp, if_pos harp, vlanHdrAdd_store (by omega) _ fun t ht => vlanHdrDel_tag hlen ht,
        vlan_roundtrip hlen, vlanHdrDel_data hlen]
    · rw [if_neg harp, if_neg harp, vlan_roundtrip hlen]

end

namespace BrSkb

variable {k : BrSkb}

theorem or_flag {b : UInt8} (h : b &&& 0x80 = 0) : (b ||| 0x80).toNat = b.toNat + 128 := by
  have hall : ∀ n < 256, n &&& 128 = 0 → n ||| 128 = n + 128 := by decide +kernel
  have hand := congrArg UInt8.toNat h
  rw [UInt8.toNat_and] at hand
  rw [UInt8.toNat_or]
  exact hall b.toNat b.toNat_lt hand

theorem leWord_le (m : Nat → UInt8) (a : Nat) : leWord m a ≤ 65535 := by
  have h1 := (m a).toNat_lt
  have h2 := (m (a + 1)).toNat_lt
  unfold leWord
  omega

/-- The new flags of a message whose UDP header is at `u`. -/
def flagged (k : BrSkb) (u : Nat) : Nat → UInt8 := write k.mem (u + 18) [k.mem (u + 18) ||| 0x80]

def newCheck (k : BrSkb) (u : Nat) : Nat := patched (leWord k.mem (u + 6)) (leWord (k.flagged u) (u + 18))

theorem newCheck_le (k : BrSkb) (u : Nat) : k.newCheck u ≤ 65535 := Nat.sub_le _ _

theorem flagged_at (k : BrSkb) (u : Nat) : k.flagged u (u + 18) = k.mem (u + 18) ||| 0x80 := write_at (x := 0) Nat.one_pos

theorem flagged_apart (k : BrSkb) {u x : Nat} (h : x ≠ u + 18) : k.flagged u x = k.mem x := by
  apply write_apart
  simp only [List.length_singleton]
  omega

theorem leWord_flagged {u : Nat} (h : k.mem (u + 18) &&& 0x80 = 0) :
    leWord (k.flagged u) (u + 18) = leWord k.mem (u + 18) + 128 := by
  unfold leWord
  rw [flagged_at, flagged_apart k (by omega), or_flag h]
  omega

def patchedFrame (k : BrSkb) (u : Nat) : BrSkb :=
  { k with mem := write (k.flagged u) (u + 6) [UInt8.ofNat (k.newCheck u % 256), UInt8.ofNat (k.newCheck u / 256)] }

theorem patchedFrame_apart (k : BrSkb) {u x : Nat} (h18 : x ≠ u + 18) (h6 : x ≠ u + 6) (h7 : x ≠ u + 7) :
    (k.patchedFrame u).mem x = k.mem x := by
  have hout : x < u + 6 ∨ u + 6 + 2 ≤ x := by omega
  exact (write_apart hout).trans (flagged_apart k h18)

theorem patchedFrame_flag (k : BrSkb) (u : Nat) : (k.patchedFrame u).mem (u + 18) = k.mem (u + 18) ||| 0x80 := by
  have hout : u + 18 < u + 6 ∨ u + 6 + 2 ≤ u + 18 := by omega
  exact (write_apart hout).trans (flagged_at k u)

theorem leWord_patchedFrame (k : BrSkb) (u : Nat) : leWord (k.patchedFrame u).mem (u + 6) = k.newCheck u := by
  have hle := k.newCheck_le u
  have h0 : (k.patchedFrame u).mem (u + 6) = UInt8.ofNat (k.newCheck u % 256) := write_at (x := 0) Nat.two_pos
  have h1 : (k.patchedFrame u).mem (u + 6 + 1) = UInt8.ofNat (k.newCheck u / 256) := write_at (x := 1) Nat.one_lt_two
  unfold leWord
  rw [h0, h1, UInt8.toNat_ofNat', UInt8.toNat_ofNat']
  omega

theorem setDhcpBcastFlag_eq (k : BrSkb) :
    k.setDhcpBcastFlag =
      if k.isDhcpFrame = true ∧ read k.mem (k.data + 14 + 4 * k.ihl k.data + 8 + 236) 4 = [0x63, 0x82, 0x53, 0x63] ∧
        k.mem (k.data + 14 + 4 * k.ihl k.data + 8 + 10) &&& 0x80 = 0 then
        k.patchedFrame (k.data + 14 + 4 * k.ihl k.data)
      else k := by
  unfold setDhcpBcastFlag
  dsimp only
  split
  · have hsame (a : Nat) : k.data + 14 + 4 * k.ihl k.data + 8 + a = k.data + 14 + 4 * k.ihl k.data + (8 + a) := Nat.add_assoc _ 8 a
    have h6 := flagged_apart k (u := k.data + 14 + 4 * k.ihl k.data) (x := k.data + 14 + 4 * k.ihl k.data + 6) (by omega)
    have h7 := flagged_apart k (u := k.data + 14 + 4 * k.ihl k.data) (x := k.data + 14 + 4 * k.ihl k.data + 7) (by omega)
    unfold patchedFrame newCheck patched fold leWord store
    rw [← h6, ← h7]
    rfl
  · rfl

theorem setDhcpBcastFlag_patched {u : Nat} (hu : u = k.data + 14 + 4 * k.ihl k.data) (hframe : k.isDhcpFrame = true)
    (hcookie : read k.mem (u + 8 + 236) 4 = [0x63, 0x82, 0x53, 0x63]) (hflag : k.mem (u + 18) &&& 0x80 = 0) :
    k.setDhcpBcastFlag = k.patchedFrame u := by
  subst hu
  rw [setDhcpBcastFlag_eq]
  exact if_pos ⟨hframe, hcookie, hflag⟩

theorem wordSum_flagged {u n : Nat} (h : k.mem (u + 18) &&& 0x80 = 0) :
    wordSum (k.flagged u) u n = wordSum k.mem u n + if 19 ≤ n then 128 else 0 := by
  by_cases hn : 19 ≤ n
  · have hreplace : wordSum (k.flagged u) u n + word k.mem u n 9 = wordSum k.mem u n + word (k.flagged u) u n 9 :=
      wordSum_replace (by omega) fun x _ _ hx _ => flagged_apart k hx
    have hword : word (k.flagged u) u n 9 = word k.mem u n 9 + 128 := by
      unfold word
      rw [show u + 2 * 9 = u + 18 from rfl, flagged_at, flagged_apart k (by omega), or_flag h]
      omega
    rw [if_pos hn]
    omega
  · rw [if_neg hn, Nat.add_zero]
    apply wordSum_congr
    intro x _ hx
    exact flagged_apart k (by omega)

theorem wordSum_patched {u n : Nat} (h : k.mem (u + 18) &&& 0x80 = 0) (hn : 8 ≤ n) :
    (wordSum (k.patchedFrame u).mem u n + (if 19 ≤ n then leWord k.mem (u + 18) else leWord k.mem (u + 18) + 128)) % 65535 =
      wordSum k.mem u n % 65535 := by
  have hreplace : wordSum (k.patchedFrame u).mem u n + word (k.flagged u) u n 3 =
      wordSum (k.flagged u) u n + word (k.patchedFrame u).mem u n 3 := by
    refine wordSum_replace (by omega) fun x _ _ h6 h7 => write_apart ?_
    simp only [List.length_cons, List.length_nil]
    omega
  have hold : word (k.flagged u) u n 3 = leWord k.mem (u + 6) := by
    unfold word leWord
    rw [if_pos (by omega), show u + 2 * 3 = u + 6 from rfl, flagged_apart k (by omega), flagged_apart k (by omega)]
  have hnew : word (k.patchedFrame u).mem u n 3 = k.newCheck u := by
    rw [← leWord_patchedFrame]
    unfold word leWord
    rw [if_pos (by omega)]
  have hflagged := wordSum_flagged (n := n) h
  have hcheck : (k.newCheck u + leWord (k.flagged u) (u + 18)) % 65535 = leWord k.mem (u + 6) % 65535 :=
    patched_mod (leWord_le _ _) (leWord_le _ _)
  rw [leWord_flagged h] at hcheck
  rw [hold, hnew, hflagged] at hreplace
  split at hreplace
  · rename_i h19
    rw [if_pos h19]
    omega
  · rename_i h19
    rw [if_neg h19]
    omega

theorem newCheck_zero {u : Nat} (h : k.mem (u + 18) &&& 0x80 = 0) (hzero : leWord k.mem (u + 6) = 0) :
    k.newCheck u = 0 ↔ leWord k.mem (u + 18) + 128 = 65535 := by
  have hflags := leWord_flagged h
  have hle := leWord_le (k.flagged u) (u + 18)
  unfold newCheck
  rw [hzero, patched_zero (by omega) hle]
  omega

theorem leWord_lt {u : Nat} (h : k.mem (u + 18) &&& 0x80 = 0) : leWord k.mem (u + 18) < 65535 := by
  have hflags := leWord_flagged h
  have hle := leWord_le (k.flagged u) (u + 18)
  omega

theorem udph_ge (k : BrSkb) : k.l3 + 14 ≤ k.udph := Nat.le_add_right _ _

theorem dhcp_place (h : k.isDhcpFrame = true) : k.hProto k.data = ethPIp ∧ k.l3 = k.data := by
  have hip : k.hProto k.data = ethPIp := by
    unfold isDhcpFrame at h
    simp only [Bool.and_eq_true, beq_iff_eq] at h
    exact h.1.1
  refine ⟨hip, if_neg ?_⟩
  rw [hip]
  decide

theorem not_ipArp_of_dhcp (h : k.IsDhcp) : ¬ k.IsIpArp := by
  obtain ⟨hip, hl3⟩ := dhcp_place h.1
  rintro ⟨harp, -⟩
  rw [hl3, hip] at harp
  exact absurd harp (by decide)

theorem not_ipArp_of_udp (h : k.IsUdp) : ¬ k.IsIpArp := fun harp => absurd (h.proto.1.symm.trans harp.1) (by decide)

section

variable {env : BrEnv} {k' : BrSkb}

theorem txChanged_source (hplace : k'.data = k.data ∧ k'.len = k.len)
    (hsource : k'.hSource k.data = if k.hDest k.data = env.devAddr then k.hSource k.data else env.devAddr)
    (hmem : ∀ x, x < k.data + 6 ∨ k.data + 12 ≤ x → k'.mem x = k.mem x) : TxChanged env k k' := by
  have hl3 := k.l3_ge
  have hudph := k.udph_ge
  have hpart (a n : Nat) (ha : k.data + 12 ≤ a) : read k'.mem a n = read k.mem a n :=
    read_congr fun x hx _ => hmem x (by omega)
  refine ⟨hplace, hsource, fun _ => .inl (hpart _ _ (by omega)), fun _ => .inl (hmem _ (by omega)),
    fun x _ _ hx _ _ => hmem x hx, fun _ => ⟨fun hzero => ?_, fun hcorrect => ?_⟩⟩
  · have hcheck : leWord k'.mem (k.udph + 6) = leWord k.mem (k.udph + 6) := by
      unfold leWord
      rw [hmem _ (by omega), hmem _ (by omega)]
    exact hcheck.trans hzero
  · have hlen : leWord k'.mem (k.udph + 4) = leWord k.mem (k.udph + 4) := by
      unfold leWord
      rw [hmem _ (by omega), hmem _ (by omega)]
    have hwords (a n : Nat) (ha : k.data + 12 ≤ a) : wordSum k'.mem a n = wordSum k.mem a n :=
      wordSum_congr fun x hx _ => hmem x (by omega)
    rw [hlen, hwords _ _ (by omega), hwords _ _ (by omega)]
    exact hcorrect

theorem txChanged_arp (harp : k.IsIpArp) (hplace : k'.data = k.data ∧ k'.len = k.len)
    (hsource : k'.hSource k.data = if k.hDest k.data = env.devAddr then k.hSource k.data else env.devAddr)
    (hsender : read k'.mem (k.l3 + 22) 6 = env.devAddr.val)
    (hmem : ∀ x, x < k.data + 6 ∨ k.data + 12 ≤ x → x < k.l3 + 22 ∨ k.l3 + 28 ≤ x → k'.mem x = k.mem x) :
    TxChanged env k k' := by
  refine ⟨hplace, hsource, fun _ => .inr hsender, fun h => absurd harp (not_ipArp_of_dhcp h), ?_,
    fun h => absurd harp (not_ipArp_of_udp h)⟩
  exact fun x _ _ hx hxarp _ => hmem x hx (hxarp harp)

def sourced (env : BrEnv) (k : BrSkb) : BrSkb := k.store (k.data + 6) env.devAddr.val

theorem sourced_mem {x : Nat} (h : x < k.data + 6 ∨ k.data + 12 ≤ x) : (k.sourced env).mem x = k.mem x := by
  apply write_apart
  rw [env.devAddr.property]
  omega

theorem sourced_hSource : (k.sourced env).hSource k.data = env.devAddr := by
  apply Subtype.ext
  have hself : read (k.sourced env).mem (k.data + 6) env.devAddr.val.length = env.devAddr.val := read_write_self
  rwa [env.devAddr.property] at hself

theorem sourced_fields : (k.sourced env).isDhcpFrame = k.isDhcpFrame ∧ (k.sourced env).ihl k.data = k.ihl k.data ∧
    ∀ a n, k.data + 12 ≤ a → read (k.sourced env).mem a n = read k.mem a n := by
  have hpart (a n : Nat) (ha : k.data + 12 ≤ a) : read (k.sourced env).mem a n = read k.mem a n :=
    read_congr fun x hx _ => sourced_mem (by omega)
  have hihl : (k.sourced env).ihl k.data = k.ihl k.data := by
    unfold ihl
    rw [sourced_mem (by omega)]
  refine ⟨?_, hihl, hpart⟩
  unfold isDhcpFrame
  have hproto : (k.sourced env).hProto k.data = k.hProto k.data := hpart _ _ (by omega)
  have hprotocol : (k.sourced env).ipProtocol k.data = k.ipProtocol k.data := sourced_mem (by omega)
  dsimp only
  rw [show (k.sourced env).data = k.data from rfl, hihl, hproto, hprotocol, hpart _ _ (by omega)]

theorem dhcp_udph (h : k.isDhcpFrame = true) : k.udph = k.data + 14 + 4 * k.ihl k.data := by
  unfold udph
  rw [(dhcp_place h).2]

theorem sourced_flag (h : k.IsDhcp) (hflag : k.mem (k.udph + 18) &&& 0x80 = 0) :
    (k.sourced env).setDhcpBcastFlag = (k.sourced env).patchedFrame k.udph := by
  obtain ⟨hdhcp, hihl, hpart⟩ := @sourced_fields k env
  obtain ⟨hframe, hcookie⟩ := h
  have hudph := k.udph_ge
  have hl3 := k.l3_ge
  apply setDhcpBcastFlag_patched
  · rw [dhcp_udph hframe, ← hihl]
    rfl
  · rw [hdhcp]
    exact hframe
  · rw [hpart _ _ (by omega)]
    exact hcookie
  · rw [sourced_mem (by omega)]
    exact hflag

theorem sourced_noFlag (h : ¬ (k.IsDhcp ∧ k.mem (k.udph + 18) &&& 0x80 = 0)) :
    (k.sourced env).setDhcpBcastFlag = k.sourced env := by
  obtain ⟨hdhcp, hihl, hpart⟩ := @sourced_fields k env
  have hudph := k.udph_ge
  have hl3 := k.l3_ge
  rw [setDhcpBcastFlag_eq]
  apply if_neg
  rintro ⟨hframe, hcookie, hflag⟩
  rw [hdhcp] at hframe
  have hu : k.udph = (k.sourced env).data + 14 + 4 * (k.sourced env).ihl (k.sourced env).data := by
    rw [dhcp_udph hframe, ← hihl]
    rfl
  rw [← hu, hpart _ _ (by omega)] at hcookie
  rw [← hu, sourced_mem (by omega)] at hflag
  exact h ⟨⟨hframe, hcookie⟩, hflag⟩

/-- **The frame with the broadcast flag**: its checksum is as good as before exactly when the other flags fit. -/
theorem txChanged_patched (hset : FlagSet env k) :
    TxChanged env k ((k.sourced env).patchedFrame k.udph) ↔ FlagsFit env k := by
  obtain ⟨hdest, hsource, hdhcp, hflag⟩ := hset
  have hudph := k.udph_ge
  have hl3 := k.l3_ge
  have hflag' : (k.sourced env).mem (k.udph + 18) &&& 0x80 = 0 := by
    rw [sourced_mem (by omega)]
    exact hflag
  have hmem (x : Nat) (hx : x < k.data + 6 ∨ k.data + 12 ≤ x) (h18 : x ≠ k.udph + 18) (h6 : x ≠ k.udph + 6)
      (h7 : x ≠ k.udph + 7) : ((k.sourced env).patchedFrame k.udph).mem x = k.mem x :=
    (patchedFrame_apart _ h18 h6 h7).trans (sourced_mem hx)
  have hflags : leWord (k.sourced env).mem (k.udph + 18) = leWord k.mem (k.udph + 18) := by
    unfold leWord
    rw [sourced_mem (by omega), sourced_mem (by omega)]
  have hold : leWord (k.sourced env).mem (k.udph + 6) = k.udpCheck := by
    unfold udpCheck leWord
    rw [sourced_mem (by omega), sourced_mem (by omega)]
  have hlt := leWord_lt hflag'
  rw [hflags] at hlt
  have hzero (h : k.udpCheck = 0) : leWord ((k.sourced env).patchedFrame k.udph).mem (k.udph + 6) = 0 ↔
      leWord k.mem (k.udph + 18) + 128 = 65535 := by
    rw [leWord_patchedFrame, ← hflags]
    exact newCheck_zero hflag' (hold.trans h)
  have hsum (hudp : k.IsUdp) (hcorrect : k.UdpCorrect) :
      (wordSum ((k.sourced env).patchedFrame k.udph).mem (k.l3 + 26) 8 + 256 * 17 +
        leWord ((k.sourced env).patchedFrame k.udph).mem (k.udph + 4) +
        wordSum ((k.sourced env).patchedFrame k.udph).mem k.udph k.udpLen) % 65535 = 0 ↔
      if 19 ≤ k.udpLen then leWord k.mem (k.udph + 18) = 0 else leWord k.mem (k.udph + 18) + 128 = 65535 := by
    have hihl := hudp.ihl
    have hpast : k.l3 + 34 ≤ k.udph := by
      unfold udph
      omega
    have hpseudo : wordSum ((k.sourced env).patchedFrame k.udph).mem (k.l3 + 26) 8 = wordSum k.mem (k.l3 + 26) 8 :=
      wordSum_congr fun x _ _ => hmem x (by omega) (by omega) (by omega) (by omega)
    have hlen : leWord ((k.sourced env).patchedFrame k.udph).mem (k.udph + 4) = leWord k.mem (k.udph + 4) := by
      unfold leWord
      rw [hmem _ (by omega) (by omega) (by omega) (by omega), hmem _ (by omega) (by omega) (by omega) (by omega)]
    have hpatched := wordSum_patched hflag' hudp.len.1
    have hsame : wordSum (k.sourced env).mem k.udph k.udpLen = wordSum k.mem k.udph k.udpLen :=
      wordSum_congr fun x _ _ => sourced_mem (by omega)
    rw [hflags, hsame] at hpatched
    rw [hpseudo, hlen]
    unfold UdpCorrect at hcorrect
    split
    · rename_i h19
      rw [if_pos h19] at hpatched
      omega
    · rename_i h19
      rw [if_neg h19] at hpatched
      omega
  constructor
  · intro h _ hudp
    obtain ⟨habsent, hcorrect⟩ := h.checksum hudp
    exact ⟨fun hc => (hzero hc).mp (habsent hc), fun hc => (hsum hudp hc).mp (hcorrect hc)⟩
  · intro hfit
    refine ⟨⟨rfl, rfl⟩, ?_, fun h => absurd h (not_ipArp_of_dhcp hdhcp), fun _ => .inr ?_, ?_, fun hudp => ?_⟩
    · rw [if_neg hdest, ← @sourced_hSource k env]
      apply Subtype.ext
      exact read_congr fun x _ _ => patchedFrame_apart _ (by omega) (by omega) (by omega)
    · rw [patchedFrame_flag, sourced_mem (by omega)]
    · intro x _ _ hx _ hxdhcp
      obtain ⟨h18, h6, h7⟩ := hxdhcp hdhcp
      exact hmem x hx h18 h6 h7
    · obtain ⟨habsent, hcorrect⟩ := hfit ⟨hdest, hsource, hdhcp, hflag⟩ hudp
      exact ⟨fun hc => (hzero hc).mpr (habsent hc), fun hc => (hsum hudp hc).mpr (hcorrect hc)⟩

end

end BrSkb

section

variable {env : BrEnv} {k : BrSkb} {p : NetwifiSBridge}

theorem flagSet_not_arp (h : FlagSet env k) : ¬ k.IsIpArp := not_ipArp_of_dhcp h.2.2.1

theorem txChanged_txFrame : TxChanged env k (txFrame env k) ↔ FlagsFit env k := by
  unfold txFrame
  by_cases hdest : k.hDest k.data = env.devAddr
  · rw [if_pos hdest]
    refine ⟨fun _ hset => absurd hdest hset.1, fun _ => txChanged_source ⟨rfl, rfl⟩ ?_ fun _ _ => rfl⟩
    rw [if_pos hdest]
  · rw [if_neg hdest]
    by_cases hsource : k.hSource k.data = env.devAddr
    · rw [if_neg (not_not_intro hsource)]
      refine ⟨fun _ hset => absurd hsource hset.2.1, fun _ => txChanged_source ⟨rfl, rfl⟩ ?_ fun _ _ => rfl⟩
      rw [if_neg hdest, hsource]
    · rw [if_pos hsource]
      change TxChanged env k (k.sourced env).setDhcpBcastFlag ↔ _
      by_cases hset : k.IsDhcp ∧ k.mem (k.udph + 18) &&& 0x80 = 0
      · rw [sourced_flag hset.1 hset.2]
        exact txChanged_patched ⟨hdest, hsource, hset⟩
      · rw [sourced_noFlag hset]
        refine ⟨fun _ h => absurd h.2.2 hset, fun _ => txChanged_source ⟨rfl, rfl⟩ ?_ fun _ hx => sourced_mem hx⟩
        rw [if_neg hdest, sourced_hSource]

theorem txChanged_replaced (harp : k.IsIpArp) : TxChanged env k (txFrame env (k.store (k.l3 + 22) env.devAddr.val)) := by
  have hl3 := k.l3_ge
  have hapart (x : Nat) (hx : x < k.l3 + 22 ∨ k.l3 + 28 ≤ x) : (k.store (k.l3 + 22) env.devAddr.val).mem x = k.mem x := by
    apply write_apart
    rw [env.devAddr.property]
    omega
  have hsender : read (k.store (k.l3 + 22) env.devAddr.val).mem (k.l3 + 22) 6 = env.devAddr.val := by
    have hself : read (k.store (k.l3 + 22) env.devAddr.val).mem (k.l3 + 22) env.devAddr.val.length = env.devAddr.val :=
      read_write_self
    rwa [env.devAddr.property] at hself
  have hdestSame : (k.store (k.l3 + 22) env.devAddr.val).hDest k.data = k.hDest k.data :=
    Subtype.ext (read_congr fun x _ _ => hapart x (by omega))
  have hsourceSame : (k.store (k.l3 + 22) env.devAddr.val).hSource k.data = k.hSource k.data :=
    Subtype.ext (read_congr fun x _ _ => hapart x (by omega))
  have hnot : ¬ (k.store (k.l3 + 22) env.devAddr.val).IsDhcp := by
    intro h
    have hip : k.hProto k.data = ethPIp := by
      rw [← (dhcp_place h.1).1]
      exact (read_congr fun x _ _ => hapart x (by omega)).symm
    have hplace : k.l3 = k.data := if_neg (by rw [hip]; decide)
    have harpProto := harp.1
    rw [hplace, hip] at harpProto
    exact absurd harpProto (by decide)
  unfold txFrame
  change TxChanged env k (if (k.store (k.l3 + 22) env.devAddr.val).hDest k.data = env.devAddr then _ else
    if (k.store (k.l3 + 22) env.devAddr.val).hSource k.data ≠ env.devAddr then
      ((k.store (k.l3 + 22) env.devAddr.val).sourced env).setDhcpBcastFlag else _)
  rw [hdestSame, hsourceSame]
  by_cases hdest : k.hDest k.data = env.devAddr
  · rw [if_pos hdest]
    refine txChanged_arp harp ⟨rfl, rfl⟩ ?_ hsender fun x _ hx => hapart x hx
    rw [if_pos hdest, hsourceSame]
  · rw [if_neg hdest]
    by_cases hsource : k.hSource k.data = env.devAddr
    · rw [if_neg (not_not_intro hsource)]
      refine txChanged_arp harp ⟨rfl, rfl⟩ ?_ hsender fun x _ hx => hapart x hx
      rw [if_neg hdest, hsourceSame, hsource]
    · rw [if_pos hsource, sourced_noFlag fun h => hnot h.1]
      refine txChanged_arp harp ⟨rfl, rfl⟩ ?_ ?_ fun x hx hxarp => ?_
      · rw [if_neg hdest]
        exact sourced_hSource
      · have hsame (x : Nat) (hx : k.l3 + 22 ≤ x) : ((k.store (k.l3 + 22) env.devAddr.val).sourced env).mem x =
            (k.store (k.l3 + 22) env.devAddr.val).mem x := sourced_mem (.inr (by show k.data + 12 ≤ x; omega))
        exact (read_congr fun x hx _ => hsame x hx).trans hsender
      · have hsame : ((k.store (k.l3 + 22) env.devAddr.val).sourced env).mem x =
            (k.store (k.l3 + 22) env.devAddr.val).mem x := sourced_mem hx
        exact hsame.trans (hapart x hxarp)

/-- **What is changed when there is no error.** -/
theorem txChanged_iff (hlen : 4 ≤ k.len) : TxChanged env k (txFrame env (txInserted env k p)) ↔ FlagsFit env k := by
  unfold txInserted
  by_cases hreplaced : Inserts env k p ∧ k.vlanHdrDel.1.ArpReplaced
  · obtain ⟨hproto, hpro, -⟩ := hreplaced.2
    obtain ⟨hprotoEq, hproEq, -⟩ := vlanHdrDel_fields hlen
    rw [vlanHdrDel_data hlen] at hproto hpro
    have harp : k.IsIpArp := ⟨hprotoEq.symm.trans hproto, hproEq.symm.trans hpro⟩
    rw [if_pos hreplaced]
    exact ⟨fun _ hset => absurd harp (flagSet_not_arp hset), fun _ => txChanged_replaced harp⟩
  · rw [if_neg hreplaced]
    exact txChanged_txFrame

end

end AtbmWifi
