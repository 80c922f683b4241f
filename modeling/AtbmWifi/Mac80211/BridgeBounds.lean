import AtbmWifi.Mac80211.BridgeTable
import AtbmWifi.Mac80211.BridgeTransparent

/-!
# The accesses of the bridge

The accesses are inside the frame exactly when it is as long as its headers announce (`txAccess_within_iff`).  With it,
`brigdeChangeTxhdr_transparent_iff` says for which frames the bridge is transparent.
-/

namespace AtbmWifi

open Memory OnesComplement BrSkb

def Within (lo hi : Nat) (l : List (Nat × Nat)) : Prop := ∀ r ∈ l, lo ≤ r.1 ∧ r.1 + r.2 ≤ hi

section

variable {lo hi : Nat}

theorem within_nil : Within lo hi [] := nofun

variable {l : List (Nat × Nat)}

theorem within_cons {a n : Nat} :
    Within lo hi ((a, n) :: l) ↔ (lo ≤ a ∧ a + n ≤ hi) ∧ Within lo hi l := List.forall_mem_cons

theorem within_append {l' : List (Nat × Nat)} : Within lo hi (l ++ l') ↔ Within lo hi l ∧ Within lo hi l' :=
  List.forall_mem_append

theorem within_ite {c : Prop} [Decidable c] : Within lo hi (if c then l else []) ↔ (c → Within lo hi l) := by
  by_cases hc : c
  · rw [if_pos hc]
    exact ⟨fun h _ => h, fun h => h hc⟩
  · rw [if_neg hc]
    exact ⟨fun _ h => absurd h hc, fun _ => within_nil⟩

theorem within_ite_not {c : Prop} [Decidable c] : Within lo hi (if c then [] else l) ↔ (¬ c → Within lo hi l) := by
  by_cases hc : c
  · rw [if_pos hc]
    exact ⟨fun _ h => absurd hc h, fun _ => within_nil⟩
  · rw [if_neg hc]
    exact ⟨fun h _ => h, fun h => h hc⟩

end

section

variable {env : BrEnv} {k : BrSkb} {p : NetwifiSBridge}

theorem vlanDelAccess_within (hlen : 14 ≤ k.len) :
    Within k.data (k.data + k.len) k.vlanDelAccess ↔ (k.hProto k.data = ethP8021q → 16 ≤ k.len) := by
  unfold vlanDelAccess
  rw [within_cons, within_ite]
  simp only [within_cons, within_nil, and_true]
  constructor
  · intro h htag
    have hpart := h.2 htag
    omega
  · intro h
    refine ⟨by omega, fun htag => ?_⟩
    have h16 := h htag
    omega

theorem vlanAddAccess_within (h : k.hProto k.data = ethP8021q → 16 ≤ k.len) :
    Within k.data (k.data + k.len) k.vlanAddAccess := by
  unfold vlanAddAccess
  rw [within_ite]
  simp only [within_cons, within_nil, and_true]
  intro htag
  have h16 := h htag
  omega

theorem fastAccess_within {k₁ : BrSkb} (hlen : 14 ≤ k.len) :
    Within k.data (k.data + k.len) (k₁.fastAccess k.data) ↔ (k₁.hProto k.data = ethPIp → 30 ≤ k.len) := by
  unfold fastAccess
  rw [within_cons, within_ite]
  simp only [within_cons, within_nil, and_true]
  constructor
  · intro h hip
    have hpart := h.2 hip
    omega
  · intro h
    refine ⟨by omega, fun hip => ?_⟩
    have h30 := h hip
    omega

theorem hashAccess_within {k₁ : BrSkb} {lo : Nat} (hlo : lo ≤ k₁.data) :
    Within lo (k₁.data + k₁.len) k₁.hashAccess ↔ 14 ≤ k₁.len ∧
      (k₁.hProto k₁.data = ethPIp → 15 ≤ k₁.len ∧ (4 * k₁.ihl k₁.data < k₁.len → 30 ≤ k₁.len)) ∧
      (k₁.hProto k₁.data = ethPArp → 42 ≤ k₁.len) := by
  have hne : ethPIp ≠ ethPArp := by decide
  unfold hashAccess
  dsimp only
  rw [within_cons]
  by_cases hip : k₁.hProto k₁.data = ethPIp
  · have harp : ¬ k₁.hProto k₁.data = ethPArp := fun h => hne (hip.symm.trans h)
    rw [if_pos hip, within_cons, within_ite_not, within_cons, within_ite_not, within_cons]
    constructor
    · rintro ⟨h12, h14, h26⟩
      refine ⟨by omega, fun _ => ⟨by omega, fun hihl => ?_⟩, fun h => absurd h harp⟩
      have hsaddr := (h26 (by omega)).1
      omega
    · rintro ⟨h14, h15, -⟩
      obtain ⟨h15, h30⟩ := h15 hip
      refine ⟨by omega, by omega, fun hihl => ?_⟩
      have hlong := h30 (by omega)
      exact ⟨by omega, fun _ => ⟨by omega, within_nil⟩⟩
  · rw [if_neg hip]
    by_cases harp : k₁.hProto k₁.data = ethPArp
    · rw [if_pos harp, within_cons, within_cons, within_cons, within_ite_not, within_cons]
      constructor
      · rintro ⟨h12, h28, h38, -⟩
        exact ⟨by omega, fun h => absurd h hip, fun _ => by omega⟩
      · rintro ⟨h14, -, h42⟩
        have hlong := h42 harp
        exact ⟨by omega, by omega, by omega, by omega, fun _ => ⟨by omega, within_nil⟩⟩
    · rw [if_neg harp]
      constructor
      · rintro ⟨h12, -⟩
        exact ⟨by omega, fun h => absurd h hip, fun h => absurd h harp⟩
      · rintro ⟨h14, -⟩
        exact ⟨by omega, within_nil⟩

theorem dhcp_port (h : k.isDhcpFrame = true) :
    k.ipProtocol k.data = 17 ∧ (read k.mem k.udph 2 = [0, 67] ∨ read k.mem k.udph 2 = [0, 68]) := by
  have hudph := dhcp_udph h
  unfold isDhcpFrame at h
  simp only [Bool.and_eq_true, Bool.or_eq_true, beq_iff_eq] at h
  obtain ⟨⟨-, hudp⟩, hports⟩ := h
  rw [← hudph] at hports
  have htake : read k.mem k.udph 2 = (read k.mem k.udph 4).take 2 := (take_read (by decide)).symm
  refine ⟨hudp, hports.imp (fun h => ?_) fun h => ?_⟩
  · rw [htake, h]
    rfl
  · rw [htake, h]
    rfl

theorem dhcpAccess_within (hlen : 14 ≤ k.len) (hip30 : k.hProto k.data = ethPIp → 30 ≤ k.len) :
    Within k.data (k.data + k.len) k.dhcpAccess ↔ (k.hProto k.data = ethPIp → k.ipProtocol k.data = 17 →
      14 + 4 * k.ihl k.data + 2 ≤ k.len ∧
      (read k.mem k.udph 2 = [0, 67] ∨ read k.mem k.udph 2 = [0, 68] → 14 + 4 * k.ihl k.data + 4 ≤ k.len) ∧
      (k.isDhcpFrame = true → 14 + 4 * k.ihl k.data + 8 + 240 ≤ k.len)) := by
  unfold dhcpAccess
  dsimp only
  rw [within_cons, within_ite_not, within_cons, within_ite_not, within_cons, within_cons, within_ite_not, within_cons,
    within_ite_not, within_cons, within_ite_not, within_cons, within_ite_not, within_cons]
  constructor
  · rintro ⟨-, h⟩ hip hudp
    have hplace : k.udph = k.data + 14 + 4 * k.ihl k.data := by
      unfold udph
      rw [show k.l3 = k.data from if_neg (by rw [hip]; decide)]
    obtain ⟨-, h23⟩ := h (not_not_intro hip)
    obtain ⟨-, hport, hrest⟩ := h23 (not_not_intro hudp)
    rw [hplace]
    refine ⟨by omega, fun hsrc => ?_, fun hdhcp => ?_⟩
    · have hdst := (hrest fun h => hsrc.elim h.1 h.2).1
      omega
    · have hsrc := (dhcp_port hdhcp).2
      rw [hplace] at hsrc
      obtain ⟨-, hcookie⟩ := hrest fun h => hsrc.elim h.1 h.2
      have hpart := (hcookie (by simp [hdhcp])).1
      omega
  · intro h
    refine ⟨by omega, fun hip => ?_⟩
    have hip := Classical.not_not.mp hip
    have h30 := hip30 hip
    have hplace : k.udph = k.data + 14 + 4 * k.ihl k.data := by
      unfold udph
      rw [show k.l3 = k.data from if_neg (by rw [hip]; decide)]
    refine ⟨by omega, fun hudp => ?_⟩
    obtain ⟨h2, h4, h248⟩ := h hip (Classical.not_not.mp hudp)
    rw [hplace] at h4
    refine ⟨by omega, by omega, fun hsrc => ?_⟩
    have hdst := h4 (Classical.byContradiction fun hno => hsrc ⟨fun h => hno (.inl h), fun h => hno (.inr h)⟩)
    refine ⟨by omega, fun hdhcp => ?_⟩
    have hlong := h248 (by simpa using hdhcp)
    exact ⟨by omega, fun _ => ⟨by omega, fun _ => ⟨by omega, within_nil⟩⟩⟩

theorem sourced_dhcpAccess : (k.sourced env).dhcpAccess = k.dhcpAccess := by
  obtain ⟨hdhcp, hihl, hpart⟩ := @sourced_fields k env
  have hproto : (k.sourced env).hProto k.data = k.hProto k.data := hpart _ _ (by omega)
  have hprotocol : (k.sourced env).ipProtocol k.data = k.ipProtocol k.data := sourced_mem (by omega)
  have hport : read (k.sourced env).mem (k.data + 14 + 4 * k.ihl k.data) 2 = read k.mem (k.data + 14 + 4 * k.ihl k.data) 2 :=
    hpart _ _ (by omega)
  have hcookie : read (k.sourced env).mem (k.data + 14 + 4 * k.ihl k.data + 8 + 236) 4 =
      read k.mem (k.data + 14 + 4 * k.ihl k.data + 8 + 236) 4 := hpart _ _ (by omega)
  have hflag : (k.sourced env).mem (k.data + 14 + 4 * k.ihl k.data + 8 + 10) =
      k.mem (k.data + 14 + 4 * k.ihl k.data + 8 + 10) := sourced_mem (by omega)
  have hdata : (k.sourced env).data = k.data := rfl
  unfold dhcpAccess
  simp only [hdata, hihl, hproto, hprotocol, hport, hdhcp, hcookie, hflag]

theorem txFrameAccess_within (hlen : 14 ≤ k.len) (hip30 : k.hProto k.data = ethPIp → 30 ≤ k.len) :
    Within k.data (k.data + k.len) (txFrameAccess env k p) ↔ UdpLong env k := by
  have hbr : Within k.data (k.data + k.len)
      (if k.hSource k.data = p.brMac ∧ k.hProto k.data = ethPIp then [(k.data + 26, 4)] else []) := by
    rw [within_ite]
    intro h
    have h30 := hip30 h.2
    exact within_cons.mpr ⟨by omega, within_nil⟩
  have hfirst : Within k.data (k.data + k.len) [(k.data + 6, 6), (k.data + 12, 2)] :=
    within_cons.mpr ⟨by omega, within_cons.mpr ⟨by omega, within_nil⟩⟩
  have hdhcp := dhcpAccess_within hlen hip30
  unfold txFrameAccess
  change Within _ _ (_ ++ _ ++ _ :: if k.hDest k.data = env.devAddr then [] else
    if k.hSource k.data ≠ env.devAddr then (k.data + 6, 6) :: (k.sourced env).dhcpAccess else [(k.data + 6, 6)]) ↔ _
  have hsrc : Within k.data (k.data + k.len) [(k.data + 6, 6)] := within_cons.mpr ⟨by omega, within_nil⟩
  rw [sourced_dhcpAccess]
  by_cases hdest : k.hDest k.data = env.devAddr
  · rw [if_pos hdest]
    refine ⟨fun _ h => absurd hdest h, fun _ => ?_⟩
    exact within_append.mpr ⟨within_append.mpr ⟨hfirst, hbr⟩, within_cons.mpr ⟨by omega, within_nil⟩⟩
  · rw [if_neg hdest]
    by_cases hsource : k.hSource k.data = env.devAddr
    · rw [if_neg (not_not_intro hsource)]
      refine ⟨fun _ _ h => absurd hsource h, fun _ => ?_⟩
      exact within_append.mpr ⟨within_append.mpr ⟨hfirst, hbr⟩, within_cons.mpr ⟨by omega, hsrc⟩⟩
    · rw [if_pos hsource]
      constructor
      · intro h _ _
        have hlast := (within_cons.mp (within_append.mp h).2).2
        exact hdhcp.mp (within_cons.mp hlast).2
      · intro h
        have hlast : Within k.data (k.data + k.len) ((k.data + 6, 6) :: k.dhcpAccess) :=
          within_cons.mpr ⟨by omega, hdhcp.mpr (h hdest hsource)⟩
        exact within_append.mpr ⟨within_append.mpr ⟨hfirst, hbr⟩, within_cons.mpr ⟨by omega, hlast⟩⟩

/-- **The accesses are inside the frame exactly when it is long enough.** -/
theorem txAccess_within_iff (hcopy : env.copyFails = false) (hlen : 14 ≤ k.len) :
    Within k.data (k.data + k.len) (txAccess env k p) ↔ TxLong env k p := by
  have hlen4 : 4 ≤ k.len := by omega
  have hl3 := k.l3_ge
  have hdata := vlanHdrDel_data hlen4
  have hash := @hashAccess_within k.vlanHdrDel.1 k.data (by omega)
  rw [vlanHdrDel_len hlen4, hdata] at hash
  have hend (hfast : k.vlanHdrDel.1.hProto k.data = ethPIp → 30 ≤ k.len) :
      Within k.data (k.data + k.len) (txFrameAccess env (txInserted env k p) p) ↔ UdpLong env k := by
    have hip30 : k.hProto k.data = ethPIp → 30 ≤ k.len := by
      intro hip
      apply hfast
      rw [vlanHdrDel_untagged (by rw [hip]; decide)]
      exact hip
    unfold txInserted
    by_cases hreplaced : Inserts env k p ∧ k.vlanHdrDel.1.ArpReplaced
    · have hproto := hreplaced.2.1
      rw [hdata, (vlanHdrDel_fields hlen4).1] at hproto
      have hnot : k.hProto k.data ≠ ethPIp := by
        intro hip
        rw [show k.l3 = k.data from if_neg (by rw [hip]; decide), hip] at hproto
        exact absurd hproto (by decide)
      have hsame : (k.store (k.l3 + 22) env.devAddr.val).hProto k.data = k.hProto k.data := by
        refine read_congr fun x _ hx => write_apart (.inl ?_)
        omega
      rw [if_pos hreplaced]
      have hwithin := @txFrameAccess_within env (k.store (k.l3 + 22) env.devAddr.val) p hlen
        fun hip => absurd (hsame.symm.trans hip) hnot
      refine hwithin.trans ⟨fun _ _ _ hip => absurd hip hnot, fun _ _ _ hip => absurd (hsame.symm.trans hip) hnot⟩
    · rw [if_neg hreplaced]
      exact txFrameAccess_within hlen hip30
  unfold txAccess
  rw [if_neg (by simp [hcopy]), within_append, within_append, within_append, vlanDelAccess_within hlen, fastAccess_within hlen,
    within_ite, within_ite_not, within_append, hash]
  constructor
  · rintro ⟨⟨⟨htag, hfast⟩, hhash⟩, hrest⟩
    refine ⟨htag, hfast, fun hins => (hhash hins).1, fun hins => (hhash hins).2.1, fun hins => (hhash hins).2.2, fun hno => ?_⟩
    exact (hend hfast).mp (hrest hno).2
  · rintro ⟨htag, hfast, hproto, hip, harp, hudp⟩
    refine ⟨⟨⟨htag, hfast⟩, fun hins => ⟨hproto hins, hip hins, harp hins⟩⟩, fun hno => ⟨vlanAddAccess_within htag, ?_⟩⟩
    exact (hend hfast).mpr (hudp hno)

/-- **The translation of a frame is transparent exactly when the frame is long enough for its headers, a frame with a tag
is not refused, and the other flags of a DHCP message fit its checksum.** -/
theorem brigdeChangeTxhdr_transparent_iff (hz : Nat) (env : BrEnv) (k : BrSkb) (p : NetwifiSBridge) (hport : env.brPort = true)
    (hlen : 14 ≤ k.len) :
    Transparent env k p hz ↔ env.copyFails = true ∨
      TxLong env k p ∧ (TxRefused env k p → k.hProto k.data ≠ ethP8021q) ∧ (¬ TxRefused env k p → FlagsFit env k) := by
  have hlen4 : 4 ≤ k.len := by omega
  by_cases hcopy : env.copyFails = true
  · have hrun : p.brigdeChangeTxhdr hz env k = (p, k, false) := by
      unfold NetwifiSBridge.brigdeChangeTxhdr
      rw [if_neg (by simp [hport]), if_pos hcopy]
    have haccess : txAccess env k p = [] := if_pos hcopy
    refine ⟨fun _ => .inl hcopy, fun _ => ⟨?_, ?_, ?_⟩⟩
    · rw [haccess]
      exact nofun
    · rw [hrun]
      exact nofun
    · rw [hrun]
      exact fun _ => ⟨⟨rfl, rfl⟩, fun _ _ _ => rfl⟩
  · have hcopy : env.copyFails = false := by simpa using hcopy
    have hrun := brigdeChangeTxhdr_eq hz p hport hcopy hlen4
    have haccess := txAccess_within_iff (p := p) hcopy hlen
    have hiff : Transparent env k p hz ↔ TxLong env k p ∧ (TxRefused env k p → SameFrame k k.vlanHdrDel.1) ∧
        (¬ TxRefused env k p → FlagsFit env k) := by
      rw [← haccess]
      by_cases hrefused : TxRefused env k p
      · rw [if_pos hrefused] at hrun
        constructor
        · intro h
          have hsame := h.same (congrArg Prod.snd hrun)
          rw [congrArg Prod.fst hrun] at hsame
          exact ⟨h.access, fun _ => hsame, fun h => absurd hrefused h⟩
        · rintro ⟨hwithin, hsame, -⟩
          refine ⟨hwithin, ?_, ?_⟩
          · rw [congrArg Prod.snd hrun]
            exact nofun
          · rw [congrArg Prod.fst hrun]
            exact fun _ => hsame hrefused
      · rw [if_neg hrefused] at hrun
        constructor
        · intro h
          have hchanged := h.changed (congrArg Prod.snd hrun)
          rw [congrArg Prod.fst hrun] at hchanged
          exact ⟨h.access, fun h => absurd h hrefused, fun _ => (txChanged_iff hlen4).mp hchanged⟩
        · rintro ⟨hwithin, -, hfit⟩
          refine ⟨hwithin, ?_, ?_⟩
          · rw [congrArg Prod.fst hrun]
            exact fun _ => (txChanged_iff hlen4).mpr (hfit hrefused)
          · rw [congrArg Prod.snd hrun]
            exact nofun
    have hsame : SameFrame k k.vlanHdrDel.1 ↔ k.hProto k.data ≠ ethP8021q := by
      constructor
      · intro h htag
        have hplace := h.place.1
        rw [vlanHdrDel_tagged htag hlen4] at hplace
        replace hplace : k.data + 4 = k.data := hplace
        omega
      · intro htag
        rw [vlanHdrDel_untagged htag]
        exact ⟨⟨rfl, rfl⟩, fun _ _ _ => rfl⟩
    rw [hiff, hsame]
    exact ⟨.inr, fun h => h.resolve_left (by simp [hcopy])⟩

end

theorem brigdeChangeTxhdr_transparent_ipv6 :
    Transparent (brPortEnv 50000)
      (brFrame ([4, 0, 0, 0, 0, 1] ++ [6, 0, 0, 0, 0, 1] ++ [0x86, 0xdd] ++ List.replicate 46 0)) (br0Attach 50000) 100 := by
  refine (brigdeChangeTxhdr_transparent_iff _ _ _ _ (by decide) (by decide)).mpr
    (.inr ⟨⟨by decide +kernel, by decide +kernel, by decide +kernel, by decide +kernel, by decide +kernel, ?_⟩, ?_, ?_⟩)
  · exact fun _ _ _ h => absurd h (by decide +kernel)
  · exact fun h => absurd h (by decide +kernel)
  · exact fun _ h => absurd h.2.2.1.1 (by decide +kernel)

/-- A tagged ARP frame that is not about IPv4 is refused without its tag. -/
theorem brigdeChangeTxhdr_untags :
    ∃ env k p, env.brPort = true ∧ 14 ≤ k.len ∧ ¬ Transparent env k p 100 := by
  refine ⟨brPortEnv 50000, brFrame (List.replicate 6 0xff ++ [6, 0, 0, 0, 0, 1] ++ ethP8021q ++ [0, 5] ++ ethPArp ++ [0, 1] ++
    [0x86, 0xdd] ++ List.replicate 42 0), (br0Attach 50000), by decide, by decide, fun h => ?_⟩
  have hplace := (h.same (by decide +kernel)).place.1
  exact absurd hplace (by decide +kernel)

end AtbmWifi
