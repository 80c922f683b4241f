import AtbmWifi.Mac80211.Bridge
import Mathlib.Data.List.Count

/-!
# The address table of the station bridge

* `NetwifiSBridge.Linked`: the list, the buckets and the entries belong together and the cache is one of them.
* `BrAct.Agrees`: a frame that gets to `br0_add` past the cache has the MAC address the cache has for its IP.
-/

namespace AtbmWifi

open Transition Memory

structure BrRun where
  br : NetwifiSBridge
  now : Nat

inductive BrAct
  | tx (env : BrEnv) (k : BrSkb)
  | rx (env : BrEnv) (k : BrSkb)
  | expire (env : BrEnv)
  | flush (env : BrEnv)

namespace BrAct

def env : BrAct → BrEnv
  | tx env _ | rx env _ | expire env | flush env => env

def Enabled (s : BrRun) (a : BrAct) : Prop := s.now ≤ a.env.now

def next (hz : Nat) (s : BrRun) (a : BrAct) : BrRun where
  br :=
    match a with
    | tx env k => (s.br.brigdeChangeTxhdr hz env k).1
    | rx env k => (s.br.brigdeChangeRxhdr hz env k).1
    | expire env => s.br.br0InfoExpire hz env.jiffies
    | flush _ => s.br.br0FreeAllLocked
  now := a.env.now

instance decEnabled (s : BrRun) (a : BrAct) : Decidable (a.Enabled s) := by
  unfold Enabled
  infer_instance

end BrAct

/-- After `br0_attach`. -/
def brStart (now : Nat) : BrRun := ⟨br0Attach (BitVec.ofNat 64 now), now⟩

def bridges (hz : Nat) : Sys BrRun BrAct :=
  .ofNext (fun s => ∃ now, s = brStart now) (fun s a => a.Enabled s) (BrAct.next hz)

namespace NetwifiSBridge

/-- The entries are on the list and on the bucket of their IP address, once, and nothing else is. -/
structure Table (p : NetwifiSBridge) : Prop where
  list : ∀ i, p.asList.count i = if (p.entries i).isSome = true then 1 else 0
  hash : ∀ b i, (p.asHash b).count i = if (p.entries i).any (fun e => br0Hash e.ipaddr == b) = true then 1 else 0
  ips : ∀ i j e f, p.entries i = some e → p.entries j = some f → e.ipaddr = f.ipaddr → i = j
  fresh : ∀ i, p.fresh ≤ i → p.entries i = none

def Fast (p : NetwifiSBridge) : Prop :=
  ∀ i, p.fastEntry = some i → ∃ e, p.entries i = some e ∧ e.ipaddr = p.fastIp ∧ e.macaddr = p.fastMac

structure Linked (p : NetwifiSBridge) : Prop where
  table : p.Table
  fast : p.Fast

end NetwifiSBridge

/-- What `ieee80211_brigde_hash_update` adds to the table. -/
def BrSkb.binding (k : BrSkb) : Option (EthAddr × List UInt8) :=
  let e := k.data
  if k.hProto e = ethPIp then
    if e + 14 + 4 * k.ihl e ≥ e + 14 + k.len ∨ k.saddr e = zeroIp then none
    else some (k.hSource e, k.saddr e)
  else if k.hProto e = ethPArp then
    if k.arPro e ≠ ethPIp ∨ k.srcIpaddr e = zeroIp then none
    else some (k.srcDevaddr e, k.srcIpaddr e)
  else none

def BrAct.Agrees (hz : Nat) (s : BrRun) : BrAct → Prop
  | tx env k => env.brPort = true → env.copyFails = false → env.alloc = true →
      k.vlanHdrDel.1.hProto k.data ≠ ethPIp → ∀ mac ip, k.vlanHdrDel.1.binding = some (mac, ip) →
      ∀ i e, s.br.fastEntry = some i → s.br.entries i = some e → e.ipaddr = ip →
      (s.br.expireDue hz env.jiffies && e.hasExpired hz env.jiffies) = false → e.macaddr = mac
  | _ => True

/-- The test `BrAct.Agrees` asks for. -/
def NetwifiSBridge.agreesWith (hz : Nat) (jiffies : BitVec 64) (mac : EthAddr) (ip : List UInt8) (p : NetwifiSBridge) : Bool :=
  p.fastEntry.all fun i => (p.entries i).all fun e =>
    e.ipaddr != ip || (p.expireDue hz jiffies && e.hasExpired hz jiffies) || e.macaddr == mac

theorem BrAct.agrees_tx {hz : Nat} {s : BrRun} {env : BrEnv} {k : BrSkb} :
    (tx env k).Agrees hz s ↔ env.brPort = true → env.copyFails = false → env.alloc = true →
      k.vlanHdrDel.1.hProto k.data ≠ ethPIp →
      k.vlanHdrDel.1.binding.all (fun b => s.br.agreesWith hz env.jiffies b.1 b.2) = true := by
  unfold Agrees NetwifiSBridge.agreesWith
  constructor
  · intro h hport hcopy halloc hproto
    rw [Option.all_eq_true]
    intro b hb
    rw [Option.all_eq_true]
    intro i hi
    rw [Option.all_eq_true]
    intro e he
    by_cases hip : e.ipaddr = b.2
    · cases hno : s.br.expireDue hz env.jiffies && e.hasExpired hz env.jiffies with
      | true => simp
      | false => simp [h hport hcopy halloc hproto b.1 b.2 hb i e hi he hip hno]
    · simp [hip]
  · intro h hport hcopy halloc hproto mac ip hb i e hi he hip hno
    have hall := (Option.all_eq_true _ _).mp (h hport hcopy halloc hproto) (mac, ip) hb
    have hmac := (Option.all_eq_true _ _).mp ((Option.all_eq_true _ _).mp hall i hi) e he
    exact Subtype.ext (by simpa [hip, hno] using hmac)

instance BrAct.decAgrees (hz : Nat) (s : BrRun) : (a : BrAct) → Decidable (a.Agrees hz s)
  | tx _ _ => decidable_of_iff _ agrees_tx.symm
  | rx _ _ | expire _ | flush _ => .isTrue trivial

namespace NetwifiSBridge

variable {hz : Nat} {p : NetwifiSBridge} {jiffies : BitVec 64}

variable {i j : Nat} {ip : List UInt8} {e : Br0Entry} {f : Br0Entry → Br0Entry}

theorem find_some (h : p.findNetinfoIp ip = some i) : ∃ e, p.entries i = some e ∧ e.ipaddr = ip := by
  have hany := List.find?_some h
  obtain ⟨e, he, hip⟩ := (Option.any_eq_true _ _).mp hany
  exact ⟨e, he, beq_iff_eq.mp hip⟩

theorem Table.mem_hash (h : p.Table) (he : p.entries i = some e) : i ∈ p.asHash (br0Hash e.ipaddr) := by
  rw [← List.count_pos_iff, h.hash, he]
  simp

theorem Table.mem_list (h : p.Table) : i ∈ p.asList ↔ (p.entries i).isSome = true := by
  rw [← List.count_pos_iff, h.list]
  split
  · next hs => simp [hs]
  · next hs => simp [hs]

theorem Table.find_none (h : p.Table) (hf : p.findNetinfoIp ip = none) (he : p.entries i = some e) : e.ipaddr ≠ ip := by
  rintro rfl
  have hno := List.find?_eq_none.mp hf i (h.mem_hash he)
  rw [he] at hno
  exact hno (beq_self_eq_true _)

theorem Table.find_eq (h : p.Table) (he : p.entries i = some e) : p.findNetinfoIp e.ipaddr = some i := by
  cases hf : p.findNetinfoIp e.ipaddr with
  | none => exact absurd rfl (h.find_none hf he)
  | some j =>
    obtain ⟨f, hf, hip⟩ := find_some hf
    rw [h.ips j i f e hf he hip]

theorem modify_entries : (p.modify i f).entries j = if j = i then (p.entries j).map f else p.entries j := by
  unfold modify
  by_cases hj : j = i
  · rw [if_pos hj, hj]
    exact setAt_self _ _ _
  · rw [if_neg hj]
    exact setAt_of_ne hj _ _

theorem Table.entries (h : p.Table) {g : Nat → Option Br0Entry}
    (hg : ∀ i, (g i).map (·.ipaddr) = (p.entries i).map (·.ipaddr)) : { p with entries := g }.Table := by
  have hsome : ∀ i, (g i).isSome = (p.entries i).isSome := fun i => by
    rw [← Option.isSome_map (f := fun e : Br0Entry => e.ipaddr), hg i, Option.isSome_map]
  refine ⟨fun i => ?_, fun b i => ?_, fun i j e f he hf hip => ?_, fun i hi => ?_⟩
  · rw [hsome]
    exact h.list i
  · have hany : (g i).any (fun e => br0Hash e.ipaddr == b) = (p.entries i).any fun e => br0Hash e.ipaddr == b := by
      have hmap : ∀ o : Option Br0Entry,
          o.any (fun e => br0Hash e.ipaddr == b) = (o.map (·.ipaddr)).any fun ip => br0Hash ip == b := by
        intro o
        cases o <;> rfl
      rw [hmap, hmap, hg i]
    rw [hany]
    exact h.hash b i
  · have he : g i = some e := he
    have hf : g j = some f := hf
    have hi := hg i
    have hj := hg j
    rw [he] at hi
    rw [hf] at hj
    obtain ⟨e', he', hie⟩ := Option.map_eq_some_iff.mp hi.symm
    obtain ⟨f', hf', hjf⟩ := Option.map_eq_some_iff.mp hj.symm
    have hie : e'.ipaddr = e.ipaddr := hie
    have hjf : f'.ipaddr = f.ipaddr := hjf
    exact h.ips i j e' f' he' hf' (by rw [hie, hjf, hip])
  · have hno := hsome i
    rw [h.fresh i hi] at hno
    exact Option.isNone_iff_eq_none.mp (by simpa using hno)

theorem Table.modify (h : p.Table) (i : Nat) (hf : ∀ e, (f e).ipaddr = e.ipaddr) : (p.modify i f).Table := by
  apply h.entries
  intro j
  have hj : setAt p.entries i ((p.entries i).map f) j = if j = i then (p.entries j).map f else p.entries j :=
    modify_entries
  rw [hj]
  split
  · rw [Option.map_map]
    congr 1
    funext e
    exact hf e
  · rfl

theorem Fast.modify (h : p.Fast) (i : Nat)
    (hf : ∀ e, p.entries i = some e → p.fastEntry = some i → (f e).ipaddr = e.ipaddr ∧ (f e).macaddr = e.macaddr) :
    (p.modify i f).Fast := by
  intro j hj
  obtain ⟨e, he, hip, hmac⟩ := h j hj
  rw [modify_entries]
  by_cases hji : j = i
  · subst hji
    obtain ⟨hfip, hfmac⟩ := hf e he hj
    rw [if_pos rfl, he]
    exact ⟨f e, rfl, hfip.trans hip, hfmac.trans hmac⟩
  · rw [if_neg hji]
    exact ⟨e, he, hip, hmac⟩

theorem Linked.touch (h : p.Linked) (i : Nat) (jiffies : BitVec 64) : (p.touch i jiffies).Linked :=
  ⟨h.table.modify i fun _ => rfl, h.fast.modify i fun _ _ _ => ⟨rfl, rfl⟩⟩

theorem br0Free_entries : (p.br0Free i).entries j = if j = i then none else p.entries j := by
  unfold br0Free
  by_cases hj : j = i
  · rw [if_pos hj, hj]
    exact setAt_self _ _ _
  · rw [if_neg hj]
    exact setAt_of_ne hj _ _

theorem count_filter_ne {l : List Nat} : (l.filter (· != i)).count j = if j = i then 0 else l.count j := by
  by_cases hj : j = i
  · rw [if_pos hj, hj]
    exact List.count_eq_zero.mpr fun hmem => by simpa using (List.mem_filter.mp hmem).2
  · rw [if_neg hj]
    exact List.count_filter (by simpa using hj)

theorem Table.br0Free (h : p.Table) (i : Nat) : (p.br0Free i).Table := by
  refine ⟨fun j => ?_, fun b j => ?_, fun j l e f he hf hip => ?_, fun j hj => ?_⟩
  · rw [br0Free_entries]
    show (p.asList.filter (· != i)).count j = _
    rw [count_filter_ne, h.list]
    by_cases hj : j = i
    · rw [if_pos hj, if_pos hj]
      rfl
    · rw [if_neg hj, if_neg hj]
  · rw [br0Free_entries]
    show ((p.asHash b).filter (· != i)).count j = _
    rw [count_filter_ne, h.hash]
    by_cases hj : j = i
    · rw [if_pos hj, if_pos hj]
      rfl
    · rw [if_neg hj, if_neg hj]
  · rw [br0Free_entries] at he hf
    split at he
    · cases he
    · split at hf
      · cases hf
      · exact h.ips j l e f he hf hip
  · rw [br0Free_entries, h.fresh j hj]
    exact ite_self _

theorem Fast.clearFast (p : NetwifiSBridge) : p.clearFast.Fast := nofun

theorem Table.clearFast (h : p.Table) : p.clearFast.Table := ⟨h.list, h.hash, h.ips, h.fresh⟩

theorem Linked.expireEntry (h : p.Linked) (i : Nat) : (p.expireEntry hz jiffies i).Linked := by
  unfold NetwifiSBridge.expireEntry
  split
  · dsimp only
    split
    · exact ⟨(h.table.br0Free i).clearFast, Fast.clearFast _⟩
    · next hfast =>
      refine ⟨h.table.br0Free i, fun j hj => ?_⟩
      have hj : p.fastEntry = some j := hj
      have hji : j ≠ i := fun hji => hfast (hji ▸ hj)
      rw [br0Free_entries, if_neg hji]
      exact h.fast j hj
  · exact h

theorem foldl_keep {Q : NetwifiSBridge → Prop} {f : NetwifiSBridge → Nat → NetwifiSBridge}
    (hf : ∀ q i, Q q → Q (f q i)) (l : List Nat) (h : Q p) : Q (l.foldl f p) := by
  induction l generalizing p with
  | nil => exact h
  | cons i l ih => exact ih (hf p i h)

theorem Linked.br0InfoExpire (h : p.Linked) : (p.br0InfoExpire hz jiffies).Linked := by
  unfold NetwifiSBridge.br0InfoExpire
  split
  · obtain ⟨htable, hfast⟩ := foldl_keep (Q := Linked) (f := NetwifiSBridge.expireEntry hz jiffies)
      (fun q i hq => hq.expireEntry i) p.asList h
    exact ⟨⟨htable.list, htable.hash, htable.ips, htable.fresh⟩, hfast⟩
  · exact h

theorem Linked.br0FreeAllLocked (h : p.Linked) : p.br0FreeAllLocked.Linked := by
  refine ⟨Table.clearFast ?_, Fast.clearFast _⟩
  exact foldl_keep (Q := Table) (f := fun p i => p.br0Free i) (fun q i hq => hq.br0Free i) p.asList h.table

theorem foldl_expire_entries (l : List Nat) (i : Nat) :
    (l.foldl (expireEntry hz jiffies) p).entries i =
      if i ∈ l ∧ (p.entries i).any (Br0Entry.hasExpired hz jiffies) = true then none else p.entries i := by
  induction l generalizing p with
  | nil => simp
  | cons j l ih =>
    have hturn : (p.expireEntry hz jiffies j).entries i =
        if i = j ∧ (p.entries i).any (Br0Entry.hasExpired hz jiffies) = true then none else p.entries i := by
      unfold expireEntry
      split
      · next hexp =>
        have hfree : (p.br0Free j).entries i = if i = j then none else p.entries i := br0Free_entries
        have hone : (if i = j then none else p.entries i) =
            if i = j ∧ (p.entries i).any (Br0Entry.hasExpired hz jiffies) = true then none else p.entries i := by
          by_cases hij : i = j
          · rw [if_pos hij, if_pos ⟨hij, hij ▸ hexp⟩]
          · rw [if_neg hij, if_neg fun h => hij h.1]
        rw [← hone, ← hfree]
        dsimp only
        split <;> rfl
      · next hno =>
        rw [if_neg]
        rintro ⟨rfl, hexp⟩
        exact hno hexp
    rw [List.foldl_cons, ih, hturn]
    by_cases hexp : (p.entries i).any (Br0Entry.hasExpired hz jiffies) = true
    · by_cases hij : i = j
      · rw [if_pos (c := i = j ∧ _) ⟨hij, hexp⟩, if_pos (c := i ∈ j :: l ∧ _) ⟨hij ▸ List.mem_cons_self, hexp⟩]
        exact ite_self _
      · rw [if_neg (c := i = j ∧ _) fun h => hij h.1]
        by_cases hl : i ∈ l
        · rw [if_pos ⟨hl, hexp⟩, if_pos ⟨List.mem_cons_of_mem _ hl, hexp⟩]
        · rw [if_neg fun h => hl h.1, if_neg]
          rintro ⟨hmem, -⟩
          rcases List.mem_cons.mp hmem with hmem | hmem
          · exact hij hmem
          · exact hl hmem
    · rw [if_neg (c := i = j ∧ _) fun h => hexp h.2, if_neg fun h => hexp h.2, if_neg fun h => hexp h.2]

theorem Table.expire_entries (h : p.Table) (i : Nat) :
    (p.br0InfoExpire hz jiffies).entries i =
      if p.expireDue hz jiffies = true ∧ (p.entries i).any (Br0Entry.hasExpired hz jiffies) = true then none
      else p.entries i := by
  unfold br0InfoExpire
  split
  · next hdue =>
    show (p.asList.foldl (expireEntry hz jiffies) p).entries i = _
    rw [foldl_expire_entries]
    cases he : p.entries i with
    | none => simp
    | some e =>
      have hmem : i ∈ p.asList := h.mem_list.mpr (by rw [he]; rfl)
      simp [hdue, hmem]
  · next hdue => rw [if_neg fun h => hdue h.1]

theorem expire_fast (hi : p.fastEntry = some i) (he : p.entries i = some e)
    (hno : (p.expireDue hz jiffies && e.hasExpired hz jiffies) = false) :
    (p.br0InfoExpire hz jiffies).fastEntry = some i ∧ (p.br0InfoExpire hz jiffies).fastMac = p.fastMac ∧
      (p.br0InfoExpire hz jiffies).fastIp = p.fastIp := by
  unfold br0InfoExpire
  split
  · next hdue =>
    have hexp : e.hasExpired hz jiffies = false := by simpa [hdue] using hno
    have hkeep := foldl_keep (p := p) (f := expireEntry hz jiffies)
      (Q := fun q => q.fastEntry = some i ∧ q.entries i = some e ∧ q.fastMac = p.fastMac ∧ q.fastIp = p.fastIp)
      (fun q j hq => by
        obtain ⟨hqi, hqe, hqm, hqp⟩ := hq
        unfold expireEntry
        split
        · next hany =>
          have hij : i ≠ j := by
            rintro rfl
            rw [hqe] at hany
            exact absurd hexp (by simpa using hany)
          have hne : ¬q.fastEntry = some j := fun hj => hij (Option.some.inj (hqi.symm.trans hj))
          dsimp only
          rw [if_neg hne]
          exact ⟨hqi, by rw [br0Free_entries, if_neg hij]; exact hqe, hqm, hqp⟩
        · exact ⟨hqi, hqe, hqm, hqp⟩) p.asList ⟨hi, he, rfl, rfl⟩
    exact ⟨hkeep.1, hkeep.2.2.1, hkeep.2.2.2⟩
  · exact ⟨hi, rfl, rfl⟩

theorem Table.br0Insert (h : p.Table) (mac : EthAddr) (ip : List UInt8) : (p.br0Insert jiffies mac ip).Table := by
  unfold NetwifiSBridge.br0Insert
  split
  · next i _ =>
    have hmodify := h.modify i (f := fun e => { e with ageingTimer := jiffies, macaddr := mac }) fun _ => rfl
    exact ⟨hmodify.list, hmodify.hash, hmodify.ips, fun j hj => hmodify.fresh j (Nat.le_of_succ_le hj)⟩
  · next hf =>
    have hnew : p.entries p.fresh = none := h.fresh _ (Nat.le_refl _)
    have hold : ∀ i, i ≠ p.fresh → setAt p.entries p.fresh (some ⟨mac, ip, 0⟩) i = p.entries i :=
      fun i hi => setAt_of_ne hi _ _
    refine ⟨fun i => ?_, fun b i => ?_, fun i j e f he hf' hip => ?_, fun i hi => ?_⟩
    · show (p.asList ++ [p.fresh]).count i = if (setAt p.entries p.fresh _ i).isSome = true then 1 else 0
      rw [List.count_append, h.list]
      by_cases hi : i = p.fresh
      · rw [hi, hnew, setAt_self]
        simp
      · rw [hold i hi, List.count_singleton, if_neg (c := (p.fresh == i) = true) (by simpa using Ne.symm hi)]
        exact Nat.add_zero _
    · show (setAt p.asHash (br0Hash ip) (p.fresh :: p.asHash (br0Hash ip)) b).count i =
        if (setAt p.entries p.fresh (some ⟨mac, ip, 0⟩) i).any (fun e => br0Hash e.ipaddr == b) = true
        then 1 else 0
      have hbucket : (setAt p.asHash (br0Hash ip) (p.fresh :: p.asHash (br0Hash ip)) b).count i =
          (p.asHash b).count i + if i = p.fresh ∧ b = br0Hash ip then 1 else 0 := by
        by_cases hb : b = br0Hash ip
        · subst hb
          rw [setAt_self, List.count_cons]
          by_cases hi : i = p.fresh
          · simp [hi]
          · rw [if_neg (by simpa using Ne.symm hi), if_neg fun h => hi h.1]
        · rw [setAt_of_ne hb, if_neg fun h => hb h.2, Nat.add_zero]
      rw [hbucket, h.hash]
      by_cases hi : i = p.fresh
      · rw [hi, hnew, setAt_self]
        by_cases hb : b = br0Hash ip
        · simp [hb]
        · rw [if_neg (by simp), if_neg fun h => hb h.2, if_neg (by simpa using Ne.symm hb)]
      · rw [hold i hi, if_neg (c := i = p.fresh ∧ _) fun h => hi h.1]
        exact Nat.add_zero _
    · have he : setAt p.entries p.fresh (some ⟨mac, ip, 0⟩) i = some e := he
      have hf' : setAt p.entries p.fresh (some ⟨mac, ip, 0⟩) j = some f := hf'
      by_cases hi : i = p.fresh
      · by_cases hj : j = p.fresh
        · rw [hi, hj]
        · rw [hi, setAt_self] at he
          rw [hold j hj] at hf'
          cases he
          exact absurd hip.symm (h.find_none hf hf')
      · rw [hold i hi] at he
        by_cases hj : j = p.fresh
        · rw [hj, setAt_self] at hf'
          cases hf'
          exact absurd hip (h.find_none hf he)
        · rw [hold j hj] at hf'
          exact h.ips i j e f he hf' hip
    · have hi : p.fresh + 1 ≤ i := hi
      show setAt p.entries p.fresh _ i = none
      rw [hold i (by omega)]
      exact h.fresh i (by omega)

theorem Linked.br0Insert (h : p.Linked) {mac : EthAddr}
    (hC : ∀ i e, p.fastEntry = some i → p.entries i = some e → e.ipaddr = ip → e.macaddr = mac) :
    (p.br0Insert jiffies mac ip).Linked := by
  refine ⟨h.table.br0Insert mac ip, ?_⟩
  unfold NetwifiSBridge.br0Insert
  split
  · next i hf =>
    have hfast := h.fast.modify i (f := fun e => { e with ageingTimer := jiffies, macaddr := mac }) fun e he hi => by
      obtain ⟨f, hf, hip⟩ := find_some hf
      cases he.symm.trans hf
      exact ⟨rfl, (hC i e hi he hip).symm⟩
    exact hfast
  · intro i hi
    obtain ⟨e, he, hip, hmac⟩ := h.fast i hi
    refine ⟨e, ?_, hip, hmac⟩
    show setAt p.entries p.fresh _ i = some e
    rw [setAt_of_ne]
    · exact he
    · rintro rfl
      cases he.symm.trans (h.table.fresh _ (Nat.le_refl _))

variable (jiffies) in
theorem insert_cached (h : p.Table) (he : p.entries i = some e) (mac : EthAddr) :
    (p.br0Insert jiffies mac e.ipaddr).entries i = some { e with ageingTimer := jiffies, macaddr := mac } ∧
      (p.br0Insert jiffies mac e.ipaddr).fastEntry = p.fastEntry ∧
      (p.br0Insert jiffies mac e.ipaddr).fastMac = p.fastMac := by
  unfold NetwifiSBridge.br0Insert
  rw [h.find_eq he]
  refine ⟨?_, rfl, rfl⟩
  show (p.modify i _).entries i = _
  rw [modify_entries, if_pos rfl, he]
  rfl

variable {env : BrEnv} {k : BrSkb}

theorem Table.fast (h : p.Table) (i : Option Nat) (mac : EthAddr) (ip : List UInt8) :
    { p with fastEntry := i, fastMac := mac, fastIp := ip }.Table := ⟨h.list, h.hash, h.ips, h.fresh⟩

theorem Linked.txFast (h : p.Linked) (jiffies : BitVec 64) (ehdr : Nat) (k : BrSkb) :
    (p.txFast jiffies ehdr k).1.Linked := by
  unfold NetwifiSBridge.txFast
  split
  · split
    · split
      · exact h.touch _ _
      · next hnone => exact ⟨h.table.fast _ _ _, fun i hi => nomatch hnone.symm.trans hi⟩
    · split
      · next i hi =>
        have hlinked : ({ p with fastEntry := some i, fastMac := k.hSource ehdr, fastIp := k.saddr ehdr } :
            NetwifiSBridge).Linked := by
          refine ⟨h.table.fast _ _ _, fun j hj => ?_⟩
          cases hj
          unfold brigdeUpdataFastInfo at hi
          split at hi
          · next j hj =>
            split at hi
            · next hany =>
              cases hi
              obtain ⟨e, he, hip⟩ := find_some hj
              rw [he] at hany
              exact ⟨e, he, hip, beq_iff_eq.mp hany⟩
            · cases hi
          · cases hi
        exact hlinked.touch i jiffies
      · exact ⟨h.table.fast _ _ _, nofun⟩
  · exact h

theorem txFast_insert {ehdr : Nat} (hneed : (p.txFast jiffies ehdr k).2 = true) :
    (p.txFast jiffies ehdr k).1.fastEntry = none ∨ k.hProto ehdr ≠ ethPIp ∧ p.txFast jiffies ehdr k = (p, true) := by
  unfold NetwifiSBridge.txFast at hneed ⊢
  by_cases hproto : k.hProto ehdr = ethPIp
  · left
    rw [if_pos hproto] at hneed ⊢
    by_cases hkeys : k.hSource ehdr = p.fastMac ∧ p.fastIp = k.saddr ehdr
    · rw [if_pos hkeys] at hneed ⊢
      cases hentry : p.fastEntry with
      | none => rfl
      | some i =>
        rw [hentry] at hneed
        cases hneed
    · rw [if_neg hkeys] at hneed ⊢
      cases hinfo : p.brigdeUpdataFastInfo (k.hSource ehdr) (k.saddr ehdr) with
      | none => rfl
      | some i =>
        rw [hinfo] at hneed
        cases hneed
  · right
    rw [if_neg hproto]
    exact ⟨hproto, rfl⟩

theorem hashUpdate_fst :
    (p.brigdeHashUpdate hz env k).1 =
      match k.binding with
      | some (mac, ip) => p.br0Add hz env mac ip
      | none => p := by
  unfold brigdeHashUpdate BrSkb.binding
  dsimp only
  split
  · split
    · next hlen => rw [if_pos (.inl hlen)]
    · next hlen =>
      split
      · next hzero => rw [if_pos (.inr hzero)]
      · next hzero => rw [if_neg (not_or.mpr ⟨hlen, hzero⟩)]
  · split
    · split
      · next hpro => rw [if_pos (.inl hpro)]
      · next hpro =>
        split
        · next hzero => rw [if_pos (.inr hzero)]
        · next hzero => rw [if_neg (not_or.mpr ⟨hpro, hzero⟩)]
    · rfl

def txTable (hz : Nat) (env : BrEnv) (k : BrSkb) (p : NetwifiSBridge) : NetwifiSBridge :=
  let (k', _) := k.vlanHdrDel
  let (q, needInsert) := p.txFast env.jiffies k.data k'
  (if needInsert = true then q.brigdeHashUpdate hz env k' else (q, k', true)).1

variable (hz p k) in
theorem changeTxhdr_fst (hport : env.brPort = true) (hcopy : env.copyFails = false) :
    ∃ ip, (p.brigdeChangeTxhdr hz env k).1 = { p.txTable hz env k with brIp := ip } := by
  unfold brigdeChangeTxhdr txTable
  rw [if_neg (by simp [hport]), if_neg (by simp [hcopy])]
  dsimp only
  generalize (if (p.txFast env.jiffies k.data k.vlanHdrDel.1).2 = true then
    (p.txFast env.jiffies k.data k.vlanHdrDel.1).1.brigdeHashUpdate hz env k.vlanHdrDel.1
    else ((p.txFast env.jiffies k.data k.vlanHdrDel.1).1, k.vlanHdrDel.1, true)) = r
  have hbrIp : ∀ (c : Prop) [Decidable c] (ip : List UInt8),
      ∃ ip', (if c then { r.1 with brIp := ip } else r.1) = { r.1 with brIp := ip' } := by
    intro c _ ip
    split
    · exact ⟨ip, rfl⟩
    · exact ⟨r.1.brIp, rfl⟩
  split
  · exact ⟨r.1.brIp, rfl⟩
  · split
    · exact hbrIp _ _
    · split
      · exact hbrIp _ _
      · exact hbrIp _ _

theorem txTable_eq :
    p.txTable hz env k =
      if (p.txFast env.jiffies k.data k.vlanHdrDel.1).2 = true then
        match k.vlanHdrDel.1.binding with
        | some (mac, ip) => (p.txFast env.jiffies k.data k.vlanHdrDel.1).1.br0Add hz env mac ip
        | none => (p.txFast env.jiffies k.data k.vlanHdrDel.1).1
      else (p.txFast env.jiffies k.data k.vlanHdrDel.1).1 := by
  unfold txTable
  dsimp only
  split
  · rw [hashUpdate_fst]
  · rfl

variable (hz p jiffies) in
theorem expire_cached : (p.br0InfoExpire hz jiffies).fastEntry = p.fastEntry ∨
    (p.br0InfoExpire hz jiffies).fastEntry = none := by
  unfold br0InfoExpire
  split
  · apply foldl_keep (Q := fun q => q.fastEntry = p.fastEntry ∨ q.fastEntry = none)
    · intro q i hq
      unfold expireEntry
      split
      · dsimp only
        split
        · exact .inr rfl
        · exact hq
      · exact hq
    · exact .inl rfl
  · exact .inl rfl

theorem Linked.br0Add (h : p.Linked) {mac : EthAddr}
    (hC : env.alloc = true → ∀ i e, p.fastEntry = some i → p.entries i = some e → e.ipaddr = ip →
      (p.expireDue hz env.jiffies && e.hasExpired hz env.jiffies) = false → e.macaddr = mac) :
    (p.br0Add hz env mac ip).Linked := by
  have hexpire : (p.br0InfoExpire hz env.jiffies).Linked := h.br0InfoExpire
  unfold NetwifiSBridge.br0Add
  dsimp only
  split
  · next halloc =>
    apply hexpire.br0Insert
    intro i e hi he hip
    rw [h.table.expire_entries] at he
    split at he
    · cases he
    · next hkept =>
      have hno : (p.expireDue hz env.jiffies && e.hasExpired hz env.jiffies) = false := by
        rw [he] at hkept
        simpa using hkept
      -- a cached entry after the expiry was one before
      have hbefore : p.fastEntry = some i := by
        rcases expire_cached hz p env.jiffies with hsame | hnone
        · rw [← hsame, hi]
        · cases hnone.symm.trans hi
      exact hC halloc i e hbefore he hip hno
  · exact hexpire

theorem Linked.brIp (h : p.Linked) (ip : List UInt8) : { p with brIp := ip }.Linked :=
  ⟨⟨h.table.list, h.table.hash, h.table.ips, h.table.fresh⟩, h.fast⟩

theorem Linked.changeTxhdr {s : BrRun} (h : s.br.Linked) (hC : (BrAct.tx env k).Agrees hz s) :
    (s.br.brigdeChangeTxhdr hz env k).1.Linked := by
  cases hport : env.brPort with
  | false =>
    unfold brigdeChangeTxhdr
    rw [if_pos hport]
    exact h
  | true =>
    cases hcopy : env.copyFails with
    | true =>
      unfold brigdeChangeTxhdr
      rw [if_neg (by simp [hport]), if_pos hcopy]
      exact h
    | false =>
      obtain ⟨ip, heq⟩ := changeTxhdr_fst hz s.br k hport hcopy
      rw [heq]
      apply Linked.brIp
      have hfast := h.txFast env.jiffies k.data k.vlanHdrDel.1
      rw [txTable_eq]
      split
      · next hneed =>
        split
        · next mac ip hbinding =>
          apply hfast.br0Add
          rcases txFast_insert hneed with hnone | ⟨hproto, hsame⟩
          · intro _ i e hi
            cases hnone.symm.trans hi
          · rw [hsame]
            intro halloc i e hi he hip hno
            exact hC hport hcopy halloc hproto mac ip hbinding i e hi he hip hno
        · exact hfast
      · exact hfast

theorem Linked.agrees {s : BrRun} (h : s.br.Linked) (hP : (s.br.brigdeChangeTxhdr hz env k).1.Linked) :
    (BrAct.tx env k).Agrees hz s := by
  intro hport hcopy halloc hproto mac ip hbinding i e hi he hip hno
  obtain ⟨ip', heq⟩ := changeTxhdr_fst hz s.br k hport hcopy
  rw [heq] at hP
  have hsame : s.br.txFast env.jiffies k.data k.vlanHdrDel.1 = (s.br, true) := by
    unfold NetwifiSBridge.txFast
    rw [if_neg hproto]
  have hadd : s.br.txTable hz env k = (s.br.br0InfoExpire hz env.jiffies).br0Insert env.jiffies mac ip := by
    rw [txTable_eq, hsame, hbinding]
    dsimp only
    rw [if_pos rfl]
    unfold NetwifiSBridge.br0Add
    rw [if_pos halloc]
  rw [hadd] at hP
  obtain ⟨hfastEntry, hfastMac, -⟩ := expire_fast hi he hno
  have hentry : (s.br.br0InfoExpire hz env.jiffies).entries i = some e := by
    rw [h.table.expire_entries, he, if_neg (by simpa using hno)]
  obtain ⟨hnew, hcached, hmac⟩ :=
    insert_cached env.jiffies h.br0InfoExpire.table hentry mac
  rw [hip] at hnew hcached hmac
  obtain ⟨f, hf, -, hfmac⟩ := hP.fast i (hcached.trans hfastEntry)
  cases hnew.symm.trans hf
  obtain ⟨e', he', -, hemac⟩ := h.fast i hi
  cases he.symm.trans he'
  calc e.macaddr = s.br.fastMac := hemac
    _ = _ := by rw [← hfastMac, ← hmac]
    _ = mac := hfmac.symm

variable (hz jiffies k) in
theorem Linked.findAndReplace (h : p.Linked) (ip : List UInt8) :
    (p.brigdeNetworkFindAndReplace hz jiffies ip k).1.Linked := by
  unfold NetwifiSBridge.brigdeNetworkFindAndReplace
  split
  · split
    · split
      · exact h
      · exact h.touch _ _
    · exact h
  · exact h

theorem Linked.changeRxhdr (h : p.Linked) : (p.changeRxhdr hz jiffies k).1.Linked := by
  have hfind := fun ip => h.findAndReplace hz jiffies k ip
  unfold NetwifiSBridge.changeRxhdr
  dsimp only
  split
  · split
    · next hr =>
      have := hfind (k.daddr k.data)
      rw [hr] at this
      exact this
    · next hr =>
      have := hfind (k.daddr k.data)
      rw [hr] at this
      split
      · exact this
      · exact this
  · split
    · exact hfind _
    · exact h

theorem Linked.reinit (h : p.Linked) (env : BrEnv) : (p.brigdeReinit env).Linked := by
  unfold NetwifiSBridge.brigdeReinit
  split
  · exact ⟨⟨h.table.list, h.table.hash, h.table.ips, h.table.fresh⟩, h.fast⟩
  · exact h

theorem Linked.brigdeChangeRxhdr (h : p.Linked) : (p.brigdeChangeRxhdr hz env k).1.Linked := by
  have hinit := h.reinit env
  unfold NetwifiSBridge.brigdeChangeRxhdr
  dsimp only
  split
  · dsimp only
    split
    · exact hinit.touch _ _
    · exact hinit.changeRxhdr
  · exact hinit

theorem linked_attach (jiffies : BitVec 64) : (br0Attach jiffies).Linked :=
  ⟨⟨fun _ => rfl, fun _ _ => rfl, nofun, fun _ _ => rfl⟩, nofun⟩

end NetwifiSBridge

/-- In every state of a run the table is linked, iff every frame agrees with the cache. -/
theorem bridge_linked {hz now : Nat} {l : List (BrRun × BrAct)} {t : BrRun} (h : Path (bridges hz) (brStart now) l t) :
    ((∀ p ∈ l, p.1.br.Linked) ∧ t.br.Linked) ↔ ∀ p ∈ l, p.2.Agrees hz p.1 := by
  apply h.exact (I := fun _ => True) (P := fun s => s.br.Linked) (C := fun s a => a.Agrees hz s)
  · rintro s a _ - hP ⟨-, rfl⟩ hC
    refine ⟨trivial, ?_⟩
    cases a with
    | tx env k => exact hP.changeTxhdr hC
    | rx env k => exact hP.brigdeChangeRxhdr
    | expire env => exact hP.br0InfoExpire
    | flush env => exact hP.br0FreeAllLocked
  · rintro s a _ - hP ⟨-, rfl⟩ hPt
    cases a with
    | tx env k => exact hP.agrees hPt
    | rx env k => exact trivial
    | expire env => exact trivial
    | flush env => exact trivial
  · exact trivial
  · exact NetwifiSBridge.linked_attach _

def brFrame (bytes : List UInt8) : BrSkb := ⟨fun x => bytes.getD (x - 16) 0, 16, bytes.length⟩

def ipFrame (dest source sip dip : List UInt8) : BrSkb :=
  brFrame (dest ++ source ++ ethPIp ++ [0x45, 0, 0, 20, 0, 0, 0, 0, 64, 17, 0, 0] ++ sip ++ dip)

def arpFrame (source sip tip : List UInt8) : BrSkb :=
  brFrame (List.replicate 6 0xff ++ source ++ ethPArp ++ [0, 1] ++ ethPIp ++ [6, 4, 0, 1] ++ source ++ sip ++
    List.replicate 6 0 ++ tip)

def brPortEnv (now : Nat) : BrEnv :=
  ⟨now, true, true, some ⟨[2, 0, 0, 0, 0, 1], rfl⟩, ⟨[2, 0, 0, 0, 0, 9], rfl⟩, false, true⟩

theorem bridge_linked_moves :
    let host : List UInt8 := [10, 0, 0, 5]
    let acts : List BrAct := [.tx (brPortEnv 50000) (ipFrame [4, 0, 0, 0, 0, 1] [6, 0, 0, 0, 0, 1] host [10, 0, 0, 7]),
      .tx (brPortEnv 50001) (ipFrame [4, 0, 0, 0, 0, 1] [6, 0, 0, 0, 0, 1] host [10, 0, 0, 7]),
      .rx (brPortEnv 50002) (ipFrame [2, 0, 0, 0, 0, 9] [4, 0, 0, 0, 0, 1] [10, 0, 0, 7] host),
      .tx (brPortEnv 50003) (arpFrame [6, 0, 0, 0, 0, 1] host [10, 0, 0, 7]),
      .tx (brPortEnv 50004) (ipFrame [4, 0, 0, 0, 0, 1] [6, 0, 0, 0, 0, 2] host [10, 0, 0, 7]),
      .expire (brPortEnv 70000)]
    (acts.foldl (BrAct.next 100) (brStart 40000)).br.Linked ∧
      (acts.foldl (BrAct.next 100) (brStart 40000)).br.asList = [] := by
  intro host acts
  have hfires : Fires (fun s a => a.Enabled s) (BrAct.next 100) (brStart 40000) acts := by decide +kernel
  exact ⟨((bridge_linked (Path.ofFires hfires)).mpr (by decide +kernel)).2, by decide +kernel⟩

/-- An ARP frame moves the cached IP address to another MAC address. -/
theorem bridge_cache_differs :
    ∃ l t, Path (bridges 100) (brStart 40000) l t ∧ ¬t.br.Linked := by
  have hfires : Fires (fun s a => a.Enabled s) (BrAct.next 100) (brStart 40000)
      [.tx (brPortEnv 40001) (ipFrame [4, 0, 0, 0, 0, 1] [6, 0, 0, 0, 0, 1] [10, 0, 0, 5] [10, 0, 0, 7]),
        .tx (brPortEnv 40002) (ipFrame [4, 0, 0, 0, 0, 1] [6, 0, 0, 0, 0, 1] [10, 0, 0, 5] [10, 0, 0, 7]),
        .tx (brPortEnv 40003) (arpFrame [6, 0, 0, 0, 0, 2] [10, 0, 0, 5] [10, 0, 0, 7])] := by decide
  refine ⟨_, _, Path.ofFires hfires, fun h => ?_⟩
  have hentry : (([.tx (brPortEnv 40001) (ipFrame [4, 0, 0, 0, 0, 1] [6, 0, 0, 0, 0, 1] [10, 0, 0, 5] [10, 0, 0, 7]),
        .tx (brPortEnv 40002) (ipFrame [4, 0, 0, 0, 0, 1] [6, 0, 0, 0, 0, 1] [10, 0, 0, 5] [10, 0, 0, 7]),
        .tx (brPortEnv 40003) (arpFrame [6, 0, 0, 0, 0, 2] [10, 0, 0, 5] [10, 0, 0, 7])] : List BrAct).foldl
      (BrAct.next 100) (brStart 40000)).br.entries 0 =
        some ⟨⟨[6, 0, 0, 0, 0, 2], rfl⟩, [10, 0, 0, 5], BitVec.ofNat 64 40003⟩ := by decide +kernel
  obtain ⟨e, he, -, hmac⟩ := h.fast 0 (by decide +kernel)
  cases hentry.symm.trans he
  exact absurd hmac (by decide +kernel)

end AtbmWifi