import AtbmWifi.Mac80211.BridgeFrame
import AtbmWifi.Mac80211.BridgeTable

/-!
# Reverse translation in the station bridge
-/

namespace AtbmWifi

open Transition Memory

/-- What a sent frame says: the MAC address of its IPv4 source or of its ARP sender. -/
def BrSkb.binds (k : BrSkb) : Option (EthAddr × List UInt8) :=
  if k.hProto k.l3 = ethPIp then
    if k.saddr k.l3 = zeroIp then none else some (k.hSource k.data, k.saddr k.l3)
  else if k.hProto k.l3 = ethPArp then
    if k.arPro k.l3 ≠ ethPIp ∨ k.srcIpaddr k.l3 = zeroIp then none
    else some (k.srcDevaddr k.l3, k.srcIpaddr k.l3)
  else none

def BrSkb.lookupIp (k : BrSkb) : Option (List UInt8) :=
  if k.hProto k.l3 = ethPIp then some (k.daddr k.l3)
  else if k.hProto k.l3 = ethPArp then some (k.tgtIpaddr k.l3)
  else none

/-- The IP address whose entry a received frame uses: that of the cache or one that is found and has not expired. -/
def NetwifiSBridge.rxUsed (hz : Nat) (env : BrEnv) (k : BrSkb) (p : NetwifiSBridge) : Option (List UInt8) :=
  if k.multicast k.data = true then none
  else
    match p.rxFast k.data k.vlanHdrDel.1 with
    | some _ => some p.fastIp
    | none => k.lookupIp.filter fun ip =>
        (p.findNetinfoIp ip).any fun i => (p.entries i).any fun e => !e.hasExpired hz env.jiffies

/-- The bridge with, for each IP address, the MAC address the last sent frame that bound it bound it to, and when
that frame was sent or the entry last used. -/
structure BrHist where
  run : BrRun
  bound : List UInt8 → Option (EthAddr × Nat)

namespace BrAct

/-- Frames that are sent and received through a bridged station interface. -/
def IsFrame (a : BrAct) : Prop :=
  match a with
  | tx env k => env.brPort = true ∧ 14 ≤ k.len
  | rx env k => env.brPort = true ∧ env.station = true ∧ 14 ≤ k.len
  | expire _ | flush _ => False

def nextHist (hz : Nat) (s : BrHist) (a : BrAct) : BrHist where
  run := a.next hz s.run
  bound :=
    match a with
    | tx env k =>
      match (s.run.br.brigdeChangeTxhdr hz env k).2.2, k.binds with
      | true, some (mac, ip) => setAt s.bound ip (some (mac, env.now))
      | _, _ => s.bound
    | rx env k =>
      match s.run.br.rxUsed hz env k with
      | some ip => setAt s.bound ip ((s.bound ip).map fun b => (b.1, env.now))
      | none => s.bound
    | expire _ | flush _ => s.bound

instance decIsFrame : (a : BrAct) → Decidable a.IsFrame
  | tx env k => inferInstanceAs (Decidable (env.brPort = true ∧ 14 ≤ k.len))
  | rx env k => inferInstanceAs (Decidable (env.brPort = true ∧ env.station = true ∧ 14 ≤ k.len))
  | expire _ | flush _ => .isFalse id

end BrAct

def brHistStart (now : Nat) : BrHist := ⟨brStart now, fun _ => none⟩

def bridgeHists (hz : Nat) : Sys BrHist BrAct :=
  .ofNext (fun s => ∃ now, s = brHistStart now) (fun s a => a.Enabled s.run ∧ a.IsFrame) (BrAct.nextHist hz)

structure BrSkb.UnicastIpv4 (k : BrSkb) : Prop where
  unicast : k.multicast k.data = false
  proto : k.hProto k.l3 = ethPIp
  header : k.l3 + 34 ≤ k.data + k.len

def ethBroadcast : EthAddr := ⟨List.replicate 6 0xff, rfl⟩

/-- The translation of the received frame `k`. -/
structure BrHist.Translates (hz : Nat) (s : BrHist) (env : BrEnv) (k : BrSkb) : Prop where
  live : ∀ mac t, s.bound (k.daddr k.l3) = some (mac, t) → env.now < t + netBr0AgeingTime hz →
    (s.run.br.brigdeChangeRxhdr hz env k).2.1.hDest k.data = mac
  unbound : s.bound (k.daddr k.l3) = none →
    (s.run.br.brigdeChangeRxhdr hz env k).2.1.hDest k.data =
      if (k.daddr k.l3).getD 3 0 = 0xff then ethBroadcast else (s.run.br.brigdeReinit env).brMac
  rest : BrSkb.SameRest k (s.run.br.brigdeChangeRxhdr hz env k).2.1

/-- The entry counts as expired although it is not: its timer was never set. -/
def BrHist.unset (hz : Nat) (s : BrHist) (env : BrEnv) (e : Br0Entry) : Bool :=
  e.ageingTimer == 0 && e.hasExpired hz env.jiffies &&
    (s.bound e.ipaddr).any fun b => env.now < b.2 + netBr0AgeingTime hz

/-- A tagged frame that is read as an IPv4 frame at the old `ehdr`: bytes 2 and 3 of its source are `08 00`. -/
def BrSkb.Misread (k : BrSkb) : Prop := k.hProto k.data = ethP8021q ∧ k.vlanHdrDel.1.hProto k.data = ethPIp

def BrAct.Clean (hz : Nat) (s : BrHist) : BrAct → Prop
  | tx env k => ¬k.Misread ∧ (tx env k).Agrees hz s.run ∧ (k.binds.isSome = true → env.alloc = true) ∧
      (s.run.br.expireDue hz env.jiffies = true →
        ∀ i ∈ s.run.br.asList, (s.run.br.entries i).any (s.unset hz env) = false)
  | rx env k => ¬k.Misread ∧ ∀ i ∈ s.run.br.asList,
      (s.run.br.entries i).any (fun e => e.ipaddr == k.daddr k.l3 && s.unset hz env e) = false
  | expire _ | flush _ => True

instance BrSkb.decMisread (k : BrSkb) : Decidable k.Misread := by
  unfold Misread
  infer_instance

instance BrAct.decClean (hz : Nat) (s : BrHist) : (a : BrAct) → Decidable (a.Clean hz s)
  | tx env k => inferInstanceAs (Decidable (¬k.Misread ∧ (tx env k).Agrees hz s.run ∧
      (k.binds.isSome = true → env.alloc = true) ∧ (s.run.br.expireDue hz env.jiffies = true →
        ∀ i ∈ s.run.br.asList, (s.run.br.entries i).any (s.unset hz env) = false)))
  | rx env k => inferInstanceAs (Decidable (¬k.Misread ∧ ∀ i ∈ s.run.br.asList,
      (s.run.br.entries i).any (fun e => e.ipaddr == k.daddr k.l3 && s.unset hz env e) = false))
  | expire _ | flush _ => .isTrue trivial

theorem not_expired {hz t now : Nat} (hhz : hz ≤ 1200) (hle : t ≤ now) (hlt : now < t + netBr0AgeingTime hz) :
    timeBeforeEq (BitVec.ofNat 64 t) (br0Timeout hz (BitVec.ofNat 64 now)) = false := by
  unfold timeBeforeEq br0Timeout
  have hT : netBr0AgeingTime hz ≤ 144000 := by
    unfold netBr0AgeingTime
    omega
  rw [decide_eq_false_iff_not, Int.not_le]
  obtain ⟨d, hd⟩ : ∃ d, d + now = t + netBr0AgeingTime hz := ⟨t + netBr0AgeingTime hz - now, by omega⟩
  have hsum : BitVec.ofNat 64 now - BitVec.ofNat 64 (netBr0AgeingTime hz) - BitVec.ofNat 64 t = -BitVec.ofNat 64 d := by
    have hd' : BitVec.ofNat 64 d + BitVec.ofNat 64 now = BitVec.ofNat 64 t + BitVec.ofNat 64 (netBr0AgeingTime hz) := by
      rw [← BitVec.ofNat_add, ← BitVec.ofNat_add, hd]
    generalize BitVec.ofNat 64 d = x at *
    generalize BitVec.ofNat 64 now = y at *
    generalize BitVec.ofNat 64 t = z at *
    generalize BitVec.ofNat 64 (netBr0AgeingTime hz) = w at *
    grind
  rw [hsum]
  have hpos : 0 < d := by omega
  have hsmall : d ≤ 144000 := by omega
  have htoInt : (BitVec.ofNat 64 d).toInt = d := by
    rw [BitVec.toInt_eq_toNat_cond, BitVec.toNat_ofNat, Nat.mod_eq_of_lt (by omega), if_pos (by omega)]
  rw [BitVec.toInt_neg, htoInt, Int.bmod_eq_of_le (by omega) (by omega)]
  omega

/-- Each entry is what the history says of its IP address, and what was said lately has an entry. -/
structure Backed (hz now : Nat) (bound : List UInt8 → Option (EthAddr × Nat)) (entries : Nat → Option Br0Entry) : Prop where
  entry : ∀ i e, entries i = some e → ∃ t, bound e.ipaddr = some (e.macaddr, t) ∧ t ≤ now ∧
    (e.ageingTimer = BitVec.ofNat 64 t ∨ e.ageingTimer = 0)
  live : ∀ ip mac t, bound ip = some (mac, t) → now < t + netBr0AgeingTime hz → ∃ i e, entries i = some e ∧ e.ipaddr = ip
  zero : bound zeroIp = none

namespace Backed

variable {hz now : Nat} {bound : List UInt8 → Option (EthAddr × Nat)} {p : NetwifiSBridge}

variable {entries : Nat → Option Br0Entry} {e : Br0Entry} {i : Nat}

theorem later {now' : Nat} (h : Backed hz now bound entries) (hle : now ≤ now') : Backed hz now' bound entries := by
  refine ⟨fun i e he => ?_, fun ip mac t hb hlt => h.live ip mac t hb (by omega), h.zero⟩
  obtain ⟨t, hb, ht, htimer⟩ := h.entry i e he
  exact ⟨t, hb, Nat.le_trans ht hle, htimer⟩

theorem ne_zero (h : Backed hz now bound entries) (he : entries i = some e) : e.ipaddr ≠ zeroIp := by
  intro hzero
  obtain ⟨t, hb, -⟩ := h.entry i e he
  rw [hzero, h.zero] at hb
  cases hb

theorem expired (h : Backed hz now bound entries) (hhz : hz ≤ 1200)
    (he : entries i = some e) (hexp : e.hasExpired hz (BitVec.ofNat 64 now) = true) {mac : EthAddr}
    {t : Nat} (hb : bound e.ipaddr = some (mac, t)) (hlt : now < t + netBr0AgeingTime hz) : e.ageingTimer = 0 := by
  obtain ⟨t', hb', hle, htimer⟩ := h.entry i e he
  cases hb.symm.trans hb'
  rcases htimer with htimer | htimer
  · unfold Br0Entry.hasExpired at hexp
    rw [htimer, not_expired hhz hle hlt] at hexp
    cases hexp
  · exact htimer

theorem touch (h : Backed hz now bound p.entries) (ht : p.Table) (he : p.entries i = some e) :
    Backed hz now (setAt bound e.ipaddr (some (e.macaddr, now))) (p.touch i (BitVec.ofNat 64 now)).entries := by
  have hentry : ∀ j, (p.touch i (BitVec.ofNat 64 now)).entries j =
      if j = i then some { e with ageingTimer := BitVec.ofNat 64 now } else p.entries j := by
    intro j
    unfold NetwifiSBridge.touch
    rw [NetwifiSBridge.modify_entries]
    by_cases hj : j = i
    · rw [if_pos hj, if_pos hj, hj, he]
      rfl
    · rw [if_neg hj, if_neg hj]
  refine ⟨fun j f hf => ?_, fun ip mac t hb hlt => ?_, ?_⟩
  · rw [hentry] at hf
    by_cases hj : j = i
    · rw [if_pos hj] at hf
      cases hf
      exact ⟨now, setAt_self _ _ _, Nat.le_refl _, .inl rfl⟩
    · rw [if_neg hj] at hf
      rw [setAt_of_ne fun hip => hj (ht.ips j i f e hf he hip)]
      exact h.entry j f hf
  · by_cases hip : ip = e.ipaddr
    · exact ⟨i, _, (hentry i).trans (if_pos rfl), hip.symm⟩
    · rw [setAt_of_ne hip] at hb
      obtain ⟨j, f, hf, hfip⟩ := h.live ip mac t hb hlt
      have hj : j ≠ i := by
        rintro rfl
        cases he.symm.trans hf
        exact hip hfip.symm
      exact ⟨j, f, (hentry j).trans ((if_neg hj).trans hf), hfip⟩
  · rw [setAt_of_ne (h.ne_zero he).symm]
    exact h.zero

theorem expire (h : Backed hz now bound p.entries) (hhz : hz ≤ 1200) (ht : p.Table)
    (hno : p.expireDue hz (BitVec.ofNat 64 now) = true → ∀ i e mac t, p.entries i = some e → e.ageingTimer = 0 →
      e.hasExpired hz (BitVec.ofNat 64 now) = true → bound e.ipaddr = some (mac, t) →
      ¬now < t + netBr0AgeingTime hz) :
    Backed hz now bound (p.br0InfoExpire hz (BitVec.ofNat 64 now)).entries := by
  refine ⟨fun i e he => ?_, fun ip mac t hb hlt => ?_, h.zero⟩
  · rw [ht.expire_entries] at he
    split at he
    · cases he
    · exact h.entry i e he
  · obtain ⟨i, e, he, rfl⟩ := h.live ip mac t hb hlt
    refine ⟨i, e, ?_, rfl⟩
    rw [ht.expire_entries, if_neg]
    · exact he
    · rintro ⟨hdue, hexp⟩
      rw [he] at hexp
      exact hno hdue i e mac t he (h.expired hhz he hexp hb hlt) hexp hb hlt

theorem insert (h : Backed hz now bound p.entries) (ht : p.Table) (mac : EthAddr) {ip : List UInt8} (hip : ip ≠ zeroIp) :
    Backed hz now (setAt bound ip (some (mac, now))) (p.br0Insert (BitVec.ofNat 64 now) mac ip).entries := by
  have hspec : ∃ i timer, (timer = BitVec.ofNat 64 now ∨ timer = 0) ∧
      (∀ j f, p.entries j = some f → (f.ipaddr = ip ↔ j = i)) ∧
      ∀ j, (p.br0Insert (BitVec.ofNat 64 now) mac ip).entries j =
        if j = i then some ⟨mac, ip, timer⟩ else p.entries j := by
    unfold NetwifiSBridge.br0Insert
    split
    · next i hfind =>
      obtain ⟨e, he, rfl⟩ := NetwifiSBridge.find_some hfind
      refine ⟨i, BitVec.ofNat 64 now, .inl rfl, fun j f hf => ⟨fun hfip => ht.ips j i f e hf he hfip, ?_⟩, fun j => ?_⟩
      · rintro rfl
        cases he.symm.trans hf
        rfl
      · show (p.modify i _).entries j = _
        rw [NetwifiSBridge.modify_entries]
        by_cases hj : j = i
        · rw [if_pos hj, if_pos hj, hj, he]
          rfl
        · rw [if_neg hj, if_neg hj]
    · next hnone =>
      refine ⟨p.fresh, 0, .inr rfl, fun j f hf => ⟨fun hfip => absurd hfip (ht.find_none hnone hf), ?_⟩, fun j => rfl⟩
      rintro rfl
      cases (ht.fresh _ (Nat.le_refl _)).symm.trans hf
  obtain ⟨i, timer, htimer, hold, hentry⟩ := hspec
  refine ⟨fun j f hf => ?_, fun ip' mac' t hb hlt => ?_, ?_⟩
  · rw [hentry] at hf
    by_cases hj : j = i
    · rw [if_pos hj] at hf
      cases hf
      exact ⟨now, setAt_self _ _ _, Nat.le_refl _, htimer⟩
    · rw [if_neg hj] at hf
      rw [setAt_of_ne fun hfip => hj ((hold j f hf).mp hfip)]
      exact h.entry j f hf
  · by_cases hsame : ip' = ip
    · exact ⟨i, _, (hentry i).trans (if_pos rfl), hsame.symm⟩
    · rw [setAt_of_ne hsame] at hb
      obtain ⟨j, f, hf, hfip⟩ := h.live ip' mac' t hb hlt
      have hj : j ≠ i := by
        rintro rfl
        exact hsame (hfip.symm.trans ((hold j f hf).mpr rfl))
      exact ⟨j, f, (hentry j).trans ((if_neg hj).trans hf), hfip⟩
  · rw [setAt_of_ne hip.symm]
    exact h.zero

end Backed

structure HistInv (hz : Nat) (s : BrHist) : Prop where
  linked : s.run.br.Linked
  backed : Backed hz s.run.now s.bound s.run.br.entries

section

variable {hz : Nat} {env : BrEnv} {k : BrSkb} {p : NetwifiSBridge}

theorem untagged_of_ip (hm : ¬k.Misread) (h : k.vlanHdrDel.1.hProto k.data = ethPIp) : k.hProto k.data ≠ ethP8021q :=
  fun htag => hm ⟨htag, h⟩

theorem txFast_entries (hm : ¬k.Misread) (h : p.Linked) (jiffies : BitVec 64) :
    ((p.txFast jiffies k.data k.vlanHdrDel.1).2 = false ∧ ∃ i e, p.entries i = some e ∧
        k.hProto k.l3 = ethPIp ∧ e.ipaddr = k.saddr k.l3 ∧ e.macaddr = k.hSource k.data ∧
        (p.txFast jiffies k.data k.vlanHdrDel.1).1.entries = (p.touch i jiffies).entries) ∨
      (p.txFast jiffies k.data k.vlanHdrDel.1).2 = true ∧
        (p.txFast jiffies k.data k.vlanHdrDel.1).1.entries = p.entries ∧
        (p.txFast jiffies k.data k.vlanHdrDel.1).1.asList = p.asList ∧
        (p.txFast jiffies k.data k.vlanHdrDel.1).1.ageingTimer = p.ageingTimer := by
  by_cases hproto : k.vlanHdrDel.1.hProto k.data = ethPIp
  · have htag := untagged_of_ip hm hproto
    have hl3 : k.l3 = k.data := by
      unfold BrSkb.l3
      rw [if_neg htag]
    rw [BrSkb.vlanHdrDel_untagged htag] at hproto ⊢
    rw [hl3]
    unfold NetwifiSBridge.txFast
    rw [if_pos hproto]
    by_cases hkeys : k.hSource k.data = p.fastMac ∧ p.fastIp = k.saddr k.data
    · rw [if_pos hkeys]
      cases hentry : p.fastEntry with
      | none => exact .inr ⟨rfl, rfl, rfl, rfl⟩
      | some i =>
        obtain ⟨e, he, hip, hmac⟩ := h.fast i hentry
        exact .inl ⟨rfl, i, e, he, hproto, hip.trans hkeys.2, hmac.trans hkeys.1.symm, rfl⟩
    · rw [if_neg hkeys]
      cases hinfo : p.brigdeUpdataFastInfo (k.hSource k.data) (k.saddr k.data) with
      | none => exact .inr ⟨rfl, rfl, rfl, rfl⟩
      | some i =>
        unfold NetwifiSBridge.brigdeUpdataFastInfo at hinfo
        split at hinfo
        · next j hj =>
          split at hinfo
          · next hany =>
            cases hinfo
            obtain ⟨e, he, hip⟩ := NetwifiSBridge.find_some hj
            rw [he] at hany
            exact .inl ⟨rfl, i, e, he, hproto, hip, beq_iff_eq.mp hany, rfl⟩
          · cases hinfo
        · cases hinfo
  · right
    unfold NetwifiSBridge.txFast
    rw [if_neg hproto]
    exact ⟨rfl, rfl, rfl, rfl⟩

theorem binding_eq (hlen : 4 ≤ k.len) (h : (p.brigdeHashUpdate hz env k.vlanHdrDel.1).2.2 = true) :
    k.vlanHdrDel.1.binding = k.binds := by
  have hdata := BrSkb.vlanHdrDel_data hlen
  have hproto : k.vlanHdrDel.1.hProto k.l3 = k.hProto k.l3 := BrSkb.vlanHdrDel_read hlen (Nat.le_refl _)
  have hsaddr : k.vlanHdrDel.1.saddr k.l3 = k.saddr k.l3 := BrSkb.vlanHdrDel_read hlen (by omega)
  have harPro : k.vlanHdrDel.1.arPro k.l3 = k.arPro k.l3 := BrSkb.vlanHdrDel_read hlen (by omega)
  have hsip : k.vlanHdrDel.1.srcIpaddr k.l3 = k.srcIpaddr k.l3 := BrSkb.vlanHdrDel_read hlen (by omega)
  have hdev : k.vlanHdrDel.1.srcDevaddr k.l3 = k.srcDevaddr k.l3 :=
    Subtype.ext (BrSkb.vlanHdrDel_read hlen (by omega))
  have hsource := BrSkb.vlanHdrDel_hSource hlen
  unfold BrSkb.binding BrSkb.binds
  unfold NetwifiSBridge.brigdeHashUpdate at h
  dsimp only at h ⊢
  rw [hdata] at h ⊢
  rw [hproto, hsaddr, harPro, hsip, hdev, hsource] at h ⊢
  by_cases hip : k.hProto k.l3 = ethPIp
  · rw [if_pos hip] at h ⊢
    rw [if_pos hip]
    split at h
    · cases h
    · next hok =>
      by_cases hzero : k.saddr k.l3 = zeroIp
      · rw [if_pos (.inr hzero), if_pos hzero]
      · rw [if_neg (not_or.mpr ⟨hok, hzero⟩), if_neg hzero]
  · rw [if_neg hip] at h ⊢
    rw [if_neg hip]

theorem binds_ne_zero {mac : EthAddr} {ip : List UInt8} (h : k.binds = some (mac, ip)) : ip ≠ zeroIp := by
  unfold BrSkb.binds at h
  split at h
  · split at h
    · cases h
    · next hzero =>
      cases h
      exact hzero
  · split at h
    · split at h
      · cases h
      · next hno =>
        cases h
        exact fun hzero => hno (.inr hzero)
    · cases h

theorem hashUpdate_refuses (h : (p.brigdeHashUpdate hz env k).2.2 = false) : (p.brigdeHashUpdate hz env k).1 = p := by
  unfold NetwifiSBridge.brigdeHashUpdate at h ⊢
  dsimp only at h ⊢
  by_cases hip : k.hProto k.data = ethPIp
  · rw [if_pos hip] at h ⊢
    split at h
    · next hlen => rw [if_pos hlen]
    · split at h <;> cases h
  · rw [if_neg hip] at h ⊢
    by_cases harp : k.hProto k.data = ethPArp
    · rw [if_pos harp] at h ⊢
      split at h
      · next hpro => rw [if_pos hpro]
      · split at h <;> cases h
    · rw [if_neg harp]

theorem changeTxhdr_ret (hport : env.brPort = true) (hcopy : env.copyFails = false) :
    (p.brigdeChangeTxhdr hz env k).2.2 =
      if (p.txFast env.jiffies k.data k.vlanHdrDel.1).2 = true then
        ((p.txFast env.jiffies k.data k.vlanHdrDel.1).1.brigdeHashUpdate hz env k.vlanHdrDel.1).2.2
      else true := by
  unfold NetwifiSBridge.brigdeChangeTxhdr
  rw [if_neg (by simp [hport]), if_neg (by simp [hcopy])]
  dsimp only
  have hpair : (if (p.txFast env.jiffies k.data k.vlanHdrDel.1).2 = true then
        ((p.txFast env.jiffies k.data k.vlanHdrDel.1).1.brigdeHashUpdate hz env k.vlanHdrDel.1).2.2
      else true) = (if (p.txFast env.jiffies k.data k.vlanHdrDel.1).2 = true then
        (p.txFast env.jiffies k.data k.vlanHdrDel.1).1.brigdeHashUpdate hz env k.vlanHdrDel.1
      else ((p.txFast env.jiffies k.data k.vlanHdrDel.1).1, k.vlanHdrDel.1, true)).2.2 := by
    split <;> rfl
  rw [hpair]
  generalize (if (p.txFast env.jiffies k.data k.vlanHdrDel.1).2 = true then
    (p.txFast env.jiffies k.data k.vlanHdrDel.1).1.brigdeHashUpdate hz env k.vlanHdrDel.1
    else ((p.txFast env.jiffies k.data k.vlanHdrDel.1).1, k.vlanHdrDel.1, true)) = r
  split
  · next hno => exact hno.symm
  · next hok =>
    have hok : r.2.2 = true := by simpa using hok
    rw [hok]
    split
    · rfl
    · split <;> rfl

end

section

variable {hz : Nat} {s : BrHist} {env : BrEnv} {k : BrSkb}

theorem HistInv.tx (h : HistInv hz s) (hhz : hz ≤ 1200) (hle : s.run.now ≤ env.now) (hport : env.brPort = true)
    (hlen : 14 ≤ k.len) (hC : (BrAct.tx env k).Clean hz s) : HistInv hz ((BrAct.tx env k).nextHist hz s) := by
  obtain ⟨hm, hagrees, halloc, hunset⟩ := hC
  refine ⟨h.linked.changeTxhdr hagrees, ?_⟩
  have hbacked := h.backed.later hle
  show Backed hz env.now
    (match (s.run.br.brigdeChangeTxhdr hz env k).2.2, k.binds with
      | true, some (mac, ip) => setAt s.bound ip (some (mac, env.now))
      | _, _ => s.bound) (s.run.br.brigdeChangeTxhdr hz env k).1.entries
  cases hcopy : env.copyFails with
  | true =>
    have hsame : s.run.br.brigdeChangeTxhdr hz env k = (s.run.br, k, false) := by
      unfold NetwifiSBridge.brigdeChangeTxhdr
      rw [if_neg (by simp [hport]), if_pos hcopy]
    rw [hsame]
    exact hbacked
  | false =>
    obtain ⟨brIp, hfst⟩ := NetwifiSBridge.changeTxhdr_fst hz s.run.br k hport hcopy
    rw [hfst, changeTxhdr_ret hport hcopy]
    show Backed hz env.now _ (s.run.br.txTable hz env k).entries
    rcases txFast_entries hm h.linked env.jiffies with
      ⟨hneed, i, e, he, hproto, hip, hmac, hentries⟩ | ⟨hneed, hentries, hlist, htimer⟩
    · have hbinds : k.binds = some (e.macaddr, e.ipaddr) := by
        unfold BrSkb.binds
        rw [if_pos hproto, ← hip, ← hmac, if_neg (hbacked.ne_zero he)]
      rw [NetwifiSBridge.txTable_eq, hneed, hbinds, if_neg (c := false = true) nofun, if_neg (c := false = true) nofun, hentries]
      exact hbacked.touch h.linked.table he
    · have hlinked := h.linked.txFast env.jiffies k.data k.vlanHdrDel.1
      generalize hq : (s.run.br.txFast env.jiffies k.data k.vlanHdrDel.1).1 = q at *
      rw [if_pos hneed]
      cases hok : (q.brigdeHashUpdate hz env k.vlanHdrDel.1).2.2 with
      | false =>
        have hsame : s.run.br.txTable hz env k = q := by
          unfold NetwifiSBridge.txTable
          dsimp only
          rw [if_pos hneed, hq]
          exact hashUpdate_refuses hok
        rw [hsame, hentries]
        exact hbacked
      | true =>
        have hbinding := binding_eq (by omega) hok
        rw [NetwifiSBridge.txTable_eq, if_pos hneed, hbinding, hq]
        cases hbinds : k.binds with
        | none =>
          dsimp only
          rw [hentries]
          exact hbacked
        | some b =>
          obtain ⟨mac, ip⟩ := b
          dsimp only
          unfold NetwifiSBridge.br0Add
          rw [if_pos (halloc (by rw [hbinds]; rfl))]
          have hqbacked : Backed hz env.now s.bound q.entries := by
            rw [hentries]
            exact hbacked
          have hexpire := hqbacked.expire hhz hlinked.table (by
            intro hdue i e mac t he hzero hexp hb hlt
            have hdue : s.run.br.expireDue hz env.jiffies = true := by
              unfold NetwifiSBridge.expireDue at hdue ⊢
              rw [← htimer]
              exact hdue
            rw [hentries] at he
            have hmem : i ∈ s.run.br.asList := h.linked.table.mem_list.mpr (by rw [he]; rfl)
            have hno := hunset hdue i hmem
            rw [he] at hno
            unfold BrHist.unset at hno
            have hexp : e.hasExpired hz env.jiffies = true := hexp
            simp [hzero, hexp, hb, hlt] at hno)
          exact hexpire.insert hlinked.br0InfoExpire.table mac (binds_ne_zero hbinds)

end

section

variable {hz : Nat} {jiffies : BitVec 64} {env : BrEnv} {k k' : BrSkb} {p : NetwifiSBridge}

variable (hz jiffies p) in
theorem findAndReplace_cases (ip : List UInt8) (k' : BrSkb) :
    (∃ i e, p.findNetinfoIp ip = some i ∧ p.entries i = some e ∧ e.ipaddr = ip ∧ e.hasExpired hz jiffies = false ∧
        p.brigdeNetworkFindAndReplace hz jiffies ip k' =
          (p.touch i jiffies, k'.store k'.data e.macaddr.val, true)) ∨
      (∃ i e, p.findNetinfoIp ip = some i ∧ p.entries i = some e ∧ e.ipaddr = ip ∧ e.hasExpired hz jiffies = true ∧
        p.brigdeNetworkFindAndReplace hz jiffies ip k' = (p, k', true)) ∨
      p.findNetinfoIp ip = none ∧ p.brigdeNetworkFindAndReplace hz jiffies ip k' = (p, k', false) := by
  unfold NetwifiSBridge.brigdeNetworkFindAndReplace
  cases hfind : p.findNetinfoIp ip with
  | none => exact .inr (.inr ⟨rfl, rfl⟩)
  | some i =>
    obtain ⟨e, he, hip⟩ := NetwifiSBridge.find_some hfind
    dsimp only
    rw [he]
    dsimp only
    cases hexp : e.hasExpired hz jiffies with
    | true => exact .inr (.inl ⟨i, e, rfl, he, hip, hexp, if_pos rfl⟩)
    | false => exact .inl ⟨i, e, rfl, he, hip, hexp, if_neg nofun⟩

theorem lookup_fields (hlen : 4 ≤ k.len) : k.vlanHdrDel.1.data = k.l3 ∧
    k.vlanHdrDel.1.hProto k.l3 = k.hProto k.l3 ∧ k.vlanHdrDel.1.daddr k.l3 = k.daddr k.l3 ∧
    k.vlanHdrDel.1.tgtIpaddr k.l3 = k.tgtIpaddr k.l3 :=
  ⟨BrSkb.vlanHdrDel_data hlen, BrSkb.vlanHdrDel_read hlen (Nat.le_refl _), BrSkb.vlanHdrDel_read hlen (by omega),
    BrSkb.vlanHdrDel_read hlen (by omega)⟩

theorem changeRxhdr_fst (hlen : 4 ≤ k.len) :
    (p.changeRxhdr hz jiffies k.vlanHdrDel.1).1 =
      match k.lookupIp with
      | some ip => (p.brigdeNetworkFindAndReplace hz jiffies ip k.vlanHdrDel.1).1
      | none => p := by
  obtain ⟨hdata, hproto, hdaddr, htgt⟩ := lookup_fields hlen
  unfold NetwifiSBridge.changeRxhdr BrSkb.lookupIp
  dsimp only
  rw [hdata, hproto, hdaddr, htgt]
  by_cases hip : k.hProto k.l3 = ethPIp
  · rw [if_pos hip, if_pos hip]
    show _ = (p.brigdeNetworkFindAndReplace hz jiffies (k.daddr k.l3) k.vlanHdrDel.1).1
    rcases findAndReplace_cases hz jiffies p (k.daddr k.l3) k.vlanHdrDel.1 with
      ⟨i, e, -, -, -, -, heq⟩ | ⟨i, e, -, -, -, -, heq⟩ | ⟨-, heq⟩
    · rw [heq]
    · rw [heq]
    · rw [heq]
      dsimp only
      split <;> rfl
  · rw [if_neg hip, if_neg hip]
    by_cases harp : k.hProto k.l3 = ethPArp
    · rw [if_pos harp, if_pos harp]
    · rw [if_neg harp, if_neg harp]

theorem changeRxhdr_snd (hlen : 4 ≤ k.len) (hip : k.hProto k.l3 = ethPIp) :
    (p.changeRxhdr hz jiffies k.vlanHdrDel.1).2 =
      match (p.brigdeNetworkFindAndReplace hz jiffies (k.daddr k.l3) k.vlanHdrDel.1).2 with
      | (k₂, true) => k₂
      | (k₂, false) =>
        if (k.daddr k.l3).getD 3 0 = 0xff then k₂.store k₂.data ethBroadcast.val
        else k₂.store k₂.data p.brMac.val := by
  obtain ⟨hdata, hproto, hdaddr, htgt⟩ := lookup_fields hlen
  unfold NetwifiSBridge.changeRxhdr
  dsimp only
  rw [hdata, hproto, hdaddr, if_pos hip]
  rcases findAndReplace_cases hz jiffies p (k.daddr k.l3) k.vlanHdrDel.1 with
    ⟨i, e, -, -, -, -, heq⟩ | ⟨i, e, -, -, -, -, heq⟩ | ⟨-, heq⟩
  · rw [heq]
  · rw [heq]
  · rw [heq]
    dsimp only
    rw [hdaddr, hdata]
    split <;> rfl

variable (hz p) in
theorem brigdeChangeRxhdr_eq (hport : env.brPort = true) (hstation : env.station = true)
    (huni : k.multicast k.data = false) :
    ((p.brigdeChangeRxhdr hz env k).1, (p.brigdeChangeRxhdr hz env k).2.1) =
      match (p.brigdeReinit env).rxFast k.data k.vlanHdrDel.1 with
      | some i => ((p.brigdeReinit env).touch i env.jiffies,
          (k.vlanHdrDel.1.store k.vlanHdrDel.1.data p.fastMac.val).vlanHdrAdd k.vlanHdrDel.2)
      | none => (((p.brigdeReinit env).changeRxhdr hz env.jiffies k.vlanHdrDel.1).1,
          ((p.brigdeReinit env).changeRxhdr hz env.jiffies k.vlanHdrDel.1).2.vlanHdrAdd k.vlanHdrDel.2) := by
  have hfastMac : (p.brigdeReinit env).fastMac = p.fastMac := by
    unfold NetwifiSBridge.brigdeReinit
    split <;> rfl
  unfold NetwifiSBridge.brigdeChangeRxhdr
  dsimp only
  rw [if_pos ⟨hport, hstation, huni⟩]
  dsimp only
  cases (p.brigdeReinit env).rxFast k.data k.vlanHdrDel.1 with
  | none => rfl
  | some i =>
    rw [← hfastMac]

theorem reinit_same (env : BrEnv) (p : NetwifiSBridge) :
    (p.brigdeReinit env).entries = p.entries ∧ (p.brigdeReinit env).asHash = p.asHash ∧
      (p.brigdeReinit env).fastEntry = p.fastEntry ∧ (p.brigdeReinit env).fastIp = p.fastIp := by
  unfold NetwifiSBridge.brigdeReinit
  split
  · exact ⟨rfl, rfl, rfl, rfl⟩
  · exact ⟨rfl, rfl, rfl, rfl⟩

theorem rxUsed_reinit : (p.brigdeReinit env).rxUsed hz env k = p.rxUsed hz env k := by
  obtain ⟨hentries, hhash, hfast, hfastIp⟩ := reinit_same env p
  unfold NetwifiSBridge.rxUsed NetwifiSBridge.rxFast NetwifiSBridge.findNetinfoIp
  rw [hentries, hhash, hfast, hfastIp]

theorem rxFast_eq {i : Nat} (h : p.rxFast k.data k' = some i) : p.fastEntry = some i := by
  unfold NetwifiSBridge.rxFast at h
  split at h
  · exact h
  · cases h

theorem Backed.rx {bound : List UInt8 → Option (EthAddr × Nat)} (h : Backed hz env.now bound p.entries) (hl : p.Linked)
    (hlen : 4 ≤ k.len) (huni : k.multicast k.data = false) :
    Backed hz env.now
      (match p.rxUsed hz env k with
        | some ip => setAt bound ip ((bound ip).map fun b => (b.1, env.now))
        | none => bound)
      (match p.rxFast k.data k.vlanHdrDel.1 with
        | some i => (p.touch i env.jiffies).entries
        | none => (p.changeRxhdr hz env.jiffies k.vlanHdrDel.1).1.entries) := by
  have hused : ∀ i e, p.entries i = some e →
      Backed hz env.now (setAt bound e.ipaddr ((bound e.ipaddr).map fun b => (b.1, env.now)))
        (p.touch i env.jiffies).entries := by
    intro i e he
    obtain ⟨t, hb, -⟩ := h.entry i e he
    rw [hb]
    exact h.touch hl.table he
  unfold NetwifiSBridge.rxUsed
  rw [if_neg (by simp [huni])]
  cases hfast : p.rxFast k.data k.vlanHdrDel.1 with
  | some i =>
    obtain ⟨e, he, hip, -⟩ := hl.fast i (rxFast_eq hfast)
    dsimp only
    rw [← hip]
    exact hused i e he
  | none =>
    dsimp only
    rw [changeRxhdr_fst hlen]
    cases k.lookupIp with
    | none => exact h
    | some ip =>
      rw [Option.filter_some]
      dsimp only
      rcases findAndReplace_cases hz env.jiffies p ip k.vlanHdrDel.1 with
        ⟨i, e, hfind, he, hip, hexp, heq⟩ | ⟨i, e, hfind, he, hip, hexp, heq⟩ | ⟨hfind, heq⟩
      · have hany : (p.findNetinfoIp ip).any
            (fun i => (p.entries i).any fun e => !e.hasExpired hz env.jiffies) = true := by
          rw [hfind, Option.any_some, he, Option.any_some, hexp]
          rfl
        rw [heq, if_pos hany, ← hip]
        exact hused i e he
      · have hany : ¬(p.findNetinfoIp ip).any
            (fun i => (p.entries i).any fun e => !e.hasExpired hz env.jiffies) = true := by
          rw [hfind, Option.any_some, he, Option.any_some, hexp]
          exact nofun
        rw [heq, if_neg hany]
        exact h
      · rw [heq, hfind]
        exact h

end

section

variable {hz : Nat} {s : BrHist} {env : BrEnv} {k : BrSkb}

theorem HistInv.rx (h : HistInv hz s) (hle : s.run.now ≤ env.now) (hport : env.brPort = true)
    (hstation : env.station = true) (hlen : 14 ≤ k.len) : HistInv hz ((BrAct.rx env k).nextHist hz s) := by
  refine ⟨h.linked.brigdeChangeRxhdr, ?_⟩
  have hbacked := h.backed.later hle
  have hsame := (reinit_same env s.run.br).1
  rw [← hsame] at hbacked
  show Backed hz env.now
    (match s.run.br.rxUsed hz env k with
      | some ip => setAt s.bound ip ((s.bound ip).map fun b => (b.1, env.now))
      | none => s.bound) (s.run.br.brigdeChangeRxhdr hz env k).1.entries
  rw [← rxUsed_reinit]
  cases huni : k.multicast k.data with
  | true =>
    unfold NetwifiSBridge.brigdeChangeRxhdr NetwifiSBridge.rxUsed
    dsimp only
    rw [if_pos huni, if_neg (by simp [huni])]
    exact hbacked
  | false =>
    have hrx := hbacked.rx (k := k) (h.linked.reinit env) (by omega) huni
    have heq := congrArg (fun r => r.1.entries) (brigdeChangeRxhdr_eq hz s.run.br hport hstation huni)
    have hentries : (s.run.br.brigdeChangeRxhdr hz env k).1.entries =
        match (s.run.br.brigdeReinit env).rxFast k.data k.vlanHdrDel.1 with
        | some i => ((s.run.br.brigdeReinit env).touch i env.jiffies).entries
        | none => ((s.run.br.brigdeReinit env).changeRxhdr hz env.jiffies k.vlanHdrDel.1).1.entries := by
      refine heq.trans ?_
      cases (s.run.br.brigdeReinit env).rxFast k.data k.vlanHdrDel.1 <;> rfl
    rw [hentries]
    exact hrx

theorem HistInv.step (h : HistInv hz s) (hhz : hz ≤ 1200) {a : BrAct} (ha : a.Enabled s.run ∧ a.IsFrame)
    (hC : a.Clean hz s) : HistInv hz (a.nextHist hz s) := by
  obtain ⟨hle, hframe⟩ := ha
  cases a with
  | tx env k => exact h.tx hhz hle hframe.1 hframe.2 hC
  | rx env k => exact h.rx hle hframe.1 hframe.2.1 hframe.2.2
  | expire env => exact hframe.elim
  | flush env => exact hframe.elim

theorem HistInv.start (now : Nat) : HistInv hz (brHistStart now) :=
  ⟨NetwifiSBridge.linked_attach _, ⟨nofun, nofun, rfl⟩⟩

structure Answers (hz : Nat) (s : BrHist) (env : BrEnv) (k k₂ : BrSkb) : Prop where
  rest : BrSkb.SameRest k.vlanHdrDel.1 k₂
  live : ∀ mac t, s.bound (k.daddr k.l3) = some (mac, t) → env.now < t + netBr0AgeingTime hz →
    k₂.hDest k₂.data = mac
  unbound : s.bound (k.daddr k.l3) = none → k₂.hDest k₂.data =
    if (k.daddr k.l3).getD 3 0 = 0xff then ethBroadcast else (s.run.br.brigdeReinit env).brMac

theorem Backed.answers (h : Backed hz env.now s.bound s.run.br.entries) {i : Nat} {e : Br0Entry}
    (he : s.run.br.entries i = some e) (hip : e.ipaddr = k.daddr k.l3) :
    Answers hz s env k (k.vlanHdrDel.1.store k.vlanHdrDel.1.data e.macaddr.val) := by
  obtain ⟨t', hb, -⟩ := h.entry i e he
  rw [hip] at hb
  refine ⟨BrSkb.sameRest_store _ e.macaddr.property, fun mac t hmac _ => ?_, fun hno => ?_⟩
  · cases hb.symm.trans hmac
    exact BrSkb.hDest_store _ _
  · cases hb.symm.trans hno

theorem HistInv.answers (h : HistInv hz s) (hhz : hz ≤ 1200) (hle : s.run.now ≤ env.now) (hport : env.brPort = true)
    (hstation : env.station = true) (hlen : 14 ≤ k.len) (hC : (BrAct.rx env k).Clean hz s) (hk : k.UnicastIpv4) :
    ∃ k₂, (s.run.br.brigdeChangeRxhdr hz env k).2.1 = k₂.vlanHdrAdd k.vlanHdrDel.2 ∧ Answers hz s env k k₂ := by
  obtain ⟨hm, hunset⟩ := hC
  have hbacked := h.backed.later hle
  obtain ⟨hentries, -, hfastEntry, hfastIp⟩ := reinit_same env s.run.br
  have hlinked := h.linked.reinit env
  have heq := congrArg Prod.snd (brigdeChangeRxhdr_eq hz s.run.br hport hstation hk.unicast)
  cases hfast : (s.run.br.brigdeReinit env).rxFast k.data k.vlanHdrDel.1 with
  | some i =>
    rw [hfast] at heq
    refine ⟨_, heq, ?_⟩
    obtain ⟨e, he, hip, hmac⟩ := h.linked.fast i (hfastEntry.symm.trans (rxFast_eq hfast))
    unfold NetwifiSBridge.rxFast at hfast
    split at hfast
    · next hread =>
      -- the frame has no tag
      have htag := untagged_of_ip hm hread.1
      have hdaddr : e.ipaddr = k.daddr k.l3 := by
        have hl3 : k.l3 = k.data := by
          unfold BrSkb.l3
          rw [if_neg htag]
        rw [hip, ← hfastIp, hread.2, BrSkb.vlanHdrDel_untagged htag, hl3]
      rw [← hmac]
      exact hbacked.answers he hdaddr
    · cases hfast
  | none =>
    rw [hfast] at heq
    refine ⟨_, heq, ?_⟩
    rw [changeRxhdr_snd (by omega) hk.proto]
    rcases findAndReplace_cases hz env.jiffies (s.run.br.brigdeReinit env) (k.daddr k.l3)
      k.vlanHdrDel.1 with ⟨i, e, -, he, hip, -, hfound⟩ | ⟨i, e, -, he, hip, hexp, hfound⟩ | ⟨hnone, hfound⟩
    · rw [hfound]
      rw [hentries] at he
      exact hbacked.answers he hip
    · rw [hfound]
      rw [hentries] at he
      refine ⟨.refl _, fun mac t hb hlt => ?_, fun hno => ?_⟩
      · -- the entry is live, so its timer was not set
        rw [← hip] at hb
        have hzero := hbacked.expired hhz he hexp hb hlt
        have hno := hunset i (h.linked.table.mem_list.mpr (by rw [he]; rfl))
        have hyes : s.unset hz env e = true := by
          unfold BrHist.unset
          rw [hzero, hexp, hb]
          exact decide_eq_true hlt
        rw [he] at hno
        have hboth : (e.ipaddr == k.daddr k.l3 && s.unset hz env e) = true := by rw [hyes, hip, beq_self_eq_true, Bool.and_self]
        exact absurd hboth (Bool.eq_false_iff.mp hno)
      · obtain ⟨t, hb, -⟩ := hbacked.entry i e he
        rw [hip] at hb
        cases hb.symm.trans hno
    · rw [hfound]
      dsimp only
      refine ⟨?_, fun mac t hb hlt => ?_, fun _ => ?_⟩
      · split
        · exact BrSkb.sameRest_store _ ethBroadcast.property
        · exact BrSkb.sameRest_store _ (s.run.br.brigdeReinit env).brMac.property
      · obtain ⟨i, e, he, hip⟩ := hbacked.live _ mac t hb hlt
        rw [← hentries] at he
        exact absurd hip (hlinked.table.find_none hnone he)
      · split
        · exact BrSkb.hDest_store _ _
        · exact BrSkb.hDest_store _ _

end

/-- After a clean history a clean unicast IPv4 frame is given the MAC address its destination IP was last bound to,
if that was said or used lately, the bridge's or broadcast, if it was never bound, and is else unchanged. -/
theorem bridge_translates {hz now : Nat} (hhz : hz ≤ 1200) {l : List (BrHist × BrAct)} {s : BrHist}
    (h : Path (bridgeHists hz) (brHistStart now) l s) (hC : ∀ p ∈ l, p.2.Clean hz p.1) {env : BrEnv} {k : BrSkb}
    (ha : (BrAct.rx env k).Enabled s.run ∧ (BrAct.rx env k).IsFrame) (hclean : (BrAct.rx env k).Clean hz s)
    (hk : k.UnicastIpv4) : s.Translates hz env k := by
  have hinv : HistInv hz s := by
    apply h.keep (C := fun s a => a.Clean hz s) (I := HistInv hz)
    · rintro s a _ hI ⟨ha, rfl⟩ hC
      exact hI.step hhz ha hC
    · exact hC
    · exact .start now
  obtain ⟨hle, hport, hstation, hlen⟩ := ha
  obtain ⟨k₂, heq, hrest, hlive, hunbound⟩ := hinv.answers hhz hle hport hstation hlen hclean hk
  obtain ⟨hsame, hdest⟩ := BrSkb.vlanHdrAdd_sameRest (by omega) hrest
  rw [← heq] at hsame hdest
  exact ⟨fun mac t hb hlt => hdest.trans (hlive mac t hb hlt), fun hno => hdest.trans (hunbound hno), hsame⟩

/-- Two frames of a host teach its binding, an ARP frame renews it, and the answer is translated. -/
theorem bridge_translates_host :
    let host : List UInt8 := [10, 0, 0, 5]
    let acts : List BrAct := [.tx (brPortEnv 50000) (ipFrame [4, 0, 0, 0, 0, 1] [6, 0, 0, 0, 0, 1] host [10, 0, 0, 7]),
      .tx (brPortEnv 50001) (ipFrame [4, 0, 0, 0, 0, 1] [6, 0, 0, 0, 0, 1] host [10, 0, 0, 7]),
      .tx (brPortEnv 50002) (arpFrame [6, 0, 0, 0, 0, 1] host [10, 0, 0, 7])]
    (acts.foldl (BrAct.nextHist 100) (brHistStart 40000)).Translates 100 (brPortEnv 50003)
      (ipFrame [2, 0, 0, 0, 0, 9] [4, 0, 0, 0, 0, 1] [10, 0, 0, 7] host) := by
  intro host acts
  have hfires : Fires (fun s a => a.Enabled s.run ∧ a.IsFrame) (BrAct.nextHist 100) (brHistStart 40000) acts := by
    decide +kernel
  exact bridge_translates (by decide) (Path.ofFires hfires) (by decide +kernel) (by decide +kernel) (by decide +kernel)
    ⟨by decide +kernel, by decide +kernel, by decide +kernel⟩

/-- The answer to a host that was just learned keeps the station's address: the timer of the new entry is not set. -/
theorem bridge_not_translated :
    ∃ l s env k, Path (bridgeHists 100) (brHistStart 40000) l s ∧
      ((BrAct.rx env k).Enabled s.run ∧ (BrAct.rx env k).IsFrame) ∧ k.UnicastIpv4 ∧ ¬s.Translates 100 env k := by
  have hfires : Fires (fun s a => a.Enabled s.run ∧ a.IsFrame) (BrAct.nextHist 100) (brHistStart 40000)
      [.tx (brPortEnv 50000) (ipFrame [4, 0, 0, 0, 0, 1] [6, 0, 0, 0, 0, 1] [10, 0, 0, 5] [10, 0, 0, 7])] := by
    decide +kernel
  refine ⟨_, _, brPortEnv 50001, ipFrame [2, 0, 0, 0, 0, 9] [4, 0, 0, 0, 0, 1] [10, 0, 0, 7] [10, 0, 0, 5],
    Path.ofFires hfires, by decide +kernel, ⟨by decide +kernel, by decide +kernel, by decide +kernel⟩, fun h => ?_⟩
  have hmac := h.live ⟨[6, 0, 0, 0, 0, 1], rfl⟩ 50000 (by decide +kernel) (by decide +kernel)
  exact absurd hmac (by decide +kernel)

end AtbmWifi
