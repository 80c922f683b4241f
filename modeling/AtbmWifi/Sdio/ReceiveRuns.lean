import AtbmWifi.Sdio.Receive
import Mathlib.Data.List.Perm.Basic

/-!
# What the SDIO receive path does with its messages

* `sdioReceive_kept`: a run is `Woken` and `Kept` in every state iff no read sequence that has handed on a message goes
  on to a control register that cannot be read or to a length that is refused: `skb_rx` still points to that
  message then, and it is freed.
-/

namespace AtbmWifi

open Transition

namespace SdioRxPc

/-- In `atbm_sdio_rx_bh`, with `bh_running` set. -/
def processing : SdioRxPc → Bool
  | process | want .rxBh | locked .rxBh | recheck => true
  | _ => false

def inRxBh (pc : SdioRxPc) : Bool := pc == .start || pc.processing

/-- Where the receive thread goes on when it gives up the host. -/
def After (r : SdioReader) : SdioRxPc → Prop
  | wake _ | sleep | want .preSched => r ≠ .rxBh
  | nap r' => r' = r ∧ r ≠ .irq ∧ r ≠ .rxBh
  | recheck => r = .rxBh
  | _ => False

theorem After.recheck {pc : SdioRxPc} (hp : pc.After .rxBh) : pc = .recheck := by
  unfold After at hp
  split at hp
  · exact absurd rfl hp
  · exact absurd rfl hp
  · exact absurd rfl hp
  · exact absurd rfl hp.2.2
  · rfl
  · exact hp.elim

/-- In `atbm_sdio_rx_bh`, before it takes the host. -/
def beforeHost : SdioRxPc → Bool
  | start | process | want .rxBh => true
  | _ => false

end SdioRxPc

def SdioHost.hand (h : SdioHost) : List Nat :=
  match h.pc with
  | .gotData | .rxHandle => h.skbRx.toList
  | _ => []

/-- A wake-up that is about to be requested: the queue has been found with no thread to take it. -/
def SdioHost.Wakes (h : SdioHost) : Prop := h.reader ≠ .rxBh ∧ ∃ full, h.pc = .submitted false full

namespace SdioRx

def hand (s : SdioRx) : List Nat :=
  match s.host with
  | some h => h.hand
  | none => []

def chain (s : SdioRx) : List Nat := s.passed ++ s.localList ++ s.rxFrameQueue ++ s.hand

def Woken (s : SdioRx) : Prop :=
  s.rxFrameQueue ≠ [] → s.rx.inRxBh = true ∨ s.wakeup = true ∨ ∃ h, s.host = some h ∧ h.Wakes

structure Kept (s : SdioRx) : Prop where
  inOrder : s.chain.Pairwise (· < ·)
  once : (s.chain ++ s.freed.map Prod.fst).Perm (List.range s.reads)
  freed : ∀ p ∈ s.freed, p.2 = true

def Due (s : SdioRx) : Prop :=
  s.cut = true → s.wakeup = true ∨ s.rx.beforeHost = true ∨
    (∃ h, s.host = some h ∧ h.reader = .rxBh ∧ (h.pc = .enter ∨ h.pc = .ctrl)) ∨
    s.rx.processing = true ∧ s.rxFrameQueue ≠ []

/-- The receive thread looks at the queue again before it leaves `atbm_sdio_rx_bh`. -/
def LooksAgain (s : SdioRx) : Prop :=
  ∀ a : SdioRxAct, a.Enabled s → s.rx.inRxBh = true → (a.next s).rx.inRxBh = true ∨ (a.next s).rxFrameQueue = []

structure Good (s : SdioRx) : Prop where
  woken : s.Woken
  looksAgain : s.LooksAgain
  kept : s.Kept
  due : s.Due

structure Inv (s : SdioRx) : Prop where
  rxLocked : ∀ r, s.rx = .locked r ↔ r ≠ .irq ∧ ∃ h, s.host = some h ∧ h.reader = r
  irqLocked : s.irq = .locked ↔ ∃ h, s.host = some h ∧ h.reader = .irq
  running : s.bhRunning = s.rx.processing
  localList : s.rx ≠ .process → s.localList = []
  wants : s.rx ≠ .want .irq
  naps : ∀ r, s.rx = .nap r → r ≠ .irq ∧ r ≠ .rxBh
  skb : ∀ h, s.host = some h → h.pc = .gotData ∨ h.pc = .rxHandle → h.skbRx.isSome = true
  /-- no one else takes what the receive thread has enqueued -/
  nonempty : ∀ h, s.host = some h → h.reader = .rxBh → ∀ running full, h.pc = .submitted running full →
    s.rxFrameQueue ≠ []

/-! ## What a step under the lock of the host does -/

/-- The steps that read no message, hand none on and keep the host. -/
structure Quiet (h h' : SdioHost) (s t : SdioRx) : Prop where
  lists : (t.rxFrameQueue, t.localList, t.passed, t.freed, t.reads) =
    (s.rxFrameQueue, s.localList, s.passed, s.freed, s.reads)
  control : (t.bhRunning, t.rx, t.irq) = (s.bhRunning, s.rx, s.irq)
  host : t.host = some h'
  reader : h'.reader = h.reader
  hand : h'.hand = h.hand
  skb : h'.pc = .gotData ∨ h'.pc = .rxHandle → h'.skbRx.isSome = true
  notSubmitted : ∀ running full, h'.pc ≠ .submitted running full
  wakeup : t.wakeup = true ∨ t.wakeup = s.wakeup ∧ ¬h.Wakes
  cut : t.cut = false ∨ t.cut = s.cut ∧ h.pc ≠ .ctrl ∧ (h.pc = .enter → h.reader = .rxBh → h'.pc = .ctrl)

/-- `skb_rx` still points to a message that is not the reader's any more, and the read sequence fails. -/
def Stale (b : SdioBus) (h : SdioHost) : Prop :=
  h.skbRx.isSome = true ∧
    (h.pc = .rxCheck ∧ b.ctrlOk = false ∨
      h.pc = .rxContinue ∧ nextReadLen h.ctrlReg ≠ 0 ∧ invalidReadLen h.ctrlReg = true)

inductive HostSpec (b : SdioBus) (h : SdioHost) (s : SdioRx) : SdioRx → Prop
  | quiet (h' : SdioHost) (t : SdioRx) : Quiet h h' s t → HostSpec b h s t
  | read (t : SdioRx) : h.pc = .rxContinue →
      t = { s with reads := s.reads + 1 }.hostAt { h with pc := .gotData, skbRx := some s.reads, ctrlReg := b.reg } →
      HostSpec b h s t
  | freed (k : Nat) (t : SdioRx) : h.pc = .gotData → h.skbRx = some k → s.terminating = true →
      t = (s.freeSkb k).hostAt { h with pc := .returned none } → HostSpec b h s t
  | stale (t : SdioRx) : Stale b h → t.rx = s.rx → HostSpec b h s t
  | submit (k : Nat) (t : SdioRx) : h.pc = .rxHandle → h.skbRx = some k → t = s.submitSkb h → HostSpec b h s t
  | short (running : Bool) (t : SdioRx) : h.pc = .submitted running true →
      h.reader = .rxBh ∧ t.wakeup = s.wakeup ∨ h.reader ≠ .rxBh ∧ t.wakeup = true →
      t = { s with wakeup := t.wakeup, cut := true }.hostAt { h with pc := .returned (some h.rxContinueCnt) } →
      HostSpec b h s t
  | irqLeft (pc : SdioIrqPc) (t : SdioRx) : h.reader = .irq → h.hand = [] → ¬h.Wakes → h.pc ≠ .ctrl → pc ≠ .locked →
      t = { s with host := none, irq := pc } → HostSpec b h s t
  | rxLeft (pc : SdioRxPc) (t : SdioRx) : h.reader ≠ .irq → h.hand = [] → ¬h.Wakes → h.pc ≠ .enter ∧ h.pc ≠ .ctrl →
      pc.After h.reader → t = { s with host := none, rx := pc } → HostSpec b h s t

section
variable {s t : SdioRx} {h h' : SdioHost} {b : SdioBus}

/-- A step that changes the place of the holder alone, from a place and to a place where it has no message. -/
theorem quiet_at (hr : h'.reader = h.reader) (ht : h'.hand = h.hand)
    (hk : h'.pc = .gotData ∨ h'.pc = .rxHandle → h'.skbRx.isSome = true) (hn : ∀ r f, h'.pc ≠ .submitted r f)
    (hw : ¬h.Wakes) (hc : h.pc ≠ .ctrl) (he : h.pc = .enter → h.reader = .rxBh → h'.pc = .ctrl) :
    Quiet h h' s (s.hostAt h') :=
  ⟨rfl, rfl, rfl, hr, ht, hk, hn, .inr ⟨rfl, hw⟩, .inr ⟨rfl, hc, he⟩⟩

theorem quiet_ctrl (hr : h'.reader = h.reader) (ht : h'.hand = h.hand)
    (hk : h'.pc = .gotData ∨ h'.pc = .rxHandle → h'.skbRx.isSome = true) (hn : ∀ r f, h'.pc ≠ .submitted r f)
    (hw : ¬h.Wakes) : Quiet h h' s ({ s with cut := false }.hostAt h') :=
  ⟨rfl, rfl, rfl, hr, ht, hk, hn, .inr ⟨rfl, hw⟩, .inl rfl⟩

theorem not_wakes (hp : ∀ full, h.pc ≠ .submitted false full) : ¬h.Wakes := fun hw => hp _ hw.2.choose_spec

theorem hostStep_spec (b : SdioBus)
    (hk : h.pc = .gotData ∨ h.pc = .rxHandle → h.skbRx.isSome = true) : HostSpec b h s (s.hostStep b h) := by
  obtain ⟨r, pc, skb, reg, cnt⟩ := h
  cases pc with
  | enter =>
    simp only [hostStep]
    cases r with
    | irq => exact .quiet _ _ (quiet_at rfl rfl nofun nofun (not_wakes nofun) nofun nofun)
    | rxBh => exact .quiet _ _ (quiet_at rfl rfl nofun nofun (not_wakes nofun) nofun fun _ _ => rfl)
    | preSched =>
      simp only
      split
      all_goals exact .quiet _ _ (quiet_at rfl rfl nofun nofun (not_wakes nofun) nofun nofun)
    | period =>
      simp only
      repeat' split
      all_goals exact .quiet _ _ (quiet_at rfl rfl nofun nofun (not_wakes nofun) nofun nofun)
  | ctrl =>
    simp only [hostStep]
    split
    all_goals exact .quiet _ _ (quiet_ctrl rfl rfl nofun nofun (not_wakes nofun))
  | enable =>
    exact .quiet _ _ ⟨rfl, rfl, rfl, rfl, rfl, nofun, nofun, .inr ⟨rfl, not_wakes nofun⟩, .inr ⟨rfl, nofun, nofun⟩⟩
  | handler =>
    simp only [hostStep]
    split
    all_goals exact .quiet _ _ ⟨rfl, rfl, rfl, rfl, rfl, nofun, nofun, .inr ⟨rfl, not_wakes nofun⟩, .inr ⟨rfl, nofun, nofun⟩⟩
  | rxCheck =>
    simp only [hostStep]
    split
    · exact .quiet _ _ (quiet_ctrl rfl rfl nofun nofun (not_wakes nofun))
    · next hb =>
      cases skb with
      | none => exact .quiet _ _ (quiet_ctrl rfl rfl nofun nofun (not_wakes nofun))
      | some k => exact .stale _ ⟨rfl, .inl ⟨rfl, by simpa using hb⟩⟩ rfl
  | rxContinue =>
    simp only [hostStep]
    split
    · exact .quiet _ _ (quiet_at rfl rfl nofun nofun (not_wakes nofun) nofun nofun)
    next h0 =>
    split
    · next hi =>
      cases skb with
      | none =>
        exact .quiet _ _ ⟨rfl, rfl, rfl, rfl, rfl, nofun, nofun, .inr ⟨rfl, not_wakes nofun⟩, .inr ⟨rfl, nofun, nofun⟩⟩
      | some k => exact .stale _ ⟨rfl, .inr ⟨rfl, h0, hi⟩⟩ rfl
    split
    · exact .quiet _ _ (quiet_at rfl rfl nofun nofun (not_wakes nofun) nofun nofun)
    split
    · exact .quiet _ _ ⟨rfl, rfl, rfl, rfl, rfl, nofun, nofun, .inr ⟨rfl, not_wakes nofun⟩, .inr ⟨rfl, nofun, nofun⟩⟩
    · exact .read _ rfl rfl
  | gotData =>
    obtain ⟨k, rfl⟩ := Option.isSome_iff_exists.mp (hk (.inl rfl))
    simp only [hostStep]
    split
    · next ht => exact .freed k _ rfl rfl ht rfl
    · exact .quiet _ _ (quiet_at rfl rfl (fun _ => rfl) nofun (not_wakes nofun) nofun nofun)
  | rxHandle =>
    obtain ⟨k, rfl⟩ := Option.isSome_iff_exists.mp (hk (.inr rfl))
    exact .submit k _ rfl rfl rfl
  | submitted running full =>
    have hreq : ∀ s' : SdioRx, s' = (if (r == .rxBh) || running then s else s.atbmSdioRevSchedule) →
        (s' = s ∧ (r = .rxBh ∨ running = true)) ∨ (s' = s.atbmSdioRevSchedule ∧ r ≠ .rxBh ∧ running = false) := by
      rintro s' rfl
      by_cases hr : r = .rxBh
      · exact .inl ⟨by simp [hr], .inl hr⟩
      · cases running with
        | true => exact .inl ⟨by simp, .inr rfl⟩
        | false => exact .inr ⟨by simp [hr], hr, rfl⟩
    simp only [hostStep, submitted]
    generalize hs' : (if (r == .rxBh) || running then s else s.atbmSdioRevSchedule) = s'
    split
    · next hf =>
      simp only [Bool.and_eq_true, Bool.or_eq_true, beq_iff_eq, Bool.not_eq_true'] at hf
      obtain ⟨rfl, hf⟩ := hf
      rcases hreq s' hs'.symm with ⟨rfl, hr⟩ | ⟨rfl, hr, -⟩
      · refine .short running _ rfl (.inl ⟨?_, rfl⟩) rfl
        rcases hr with hr | hr
        · exact hr
        · exact hf.resolve_right fun hno => absurd (hr.symm.trans hno) (by decide)
      · exact .short running _ rfl (.inr ⟨hr, rfl⟩) rfl
    · generalize hp : (if nextReadLen reg = 0 then SdioHostPc.rxCheck else .rxContinue) = p
      have hpc : p = .rxCheck ∨ p = .rxContinue := by
        rw [← hp]
        split
        · exact .inl rfl
        · exact .inr rfl
      rcases hreq s' hs'.symm with ⟨rfl, hr⟩ | ⟨rfl, -⟩
      · have hno : ¬SdioHost.Wakes ⟨r, .submitted running full, skb, reg, cnt⟩ := by
          rintro ⟨hne, full', hp⟩
          cases hp
          exact hr.elim hne nofun
        rcases hpc with rfl | rfl
        all_goals exact .quiet _ _ (quiet_at rfl rfl nofun nofun hno nofun nofun)
      · rcases hpc with rfl | rfl
        all_goals exact .quiet _ _ ⟨rfl, rfl, rfl, rfl, rfl, nofun, nofun, .inl rfl, .inr ⟨rfl, nofun, nofun⟩⟩
  | returned cnt =>
    simp only [hostStep]
    split
    · exact .quiet _ _ (quiet_at rfl rfl nofun nofun (not_wakes nofun) nofun nofun)
    · exact .quiet _ _ (quiet_at rfl rfl nofun nofun (not_wakes nofun) nofun nofun)
    next n hr =>
    split
    · exact .quiet _ _ (quiet_at rfl rfl nofun nofun (not_wakes nofun) nofun nofun)
    split
    · cases r with
      | irq => exact .irqLeft .nap _ rfl rfl (not_wakes nofun) nofun nofun rfl
      | rxBh => exact absurd rfl hr
      | period => exact .rxLeft (.nap .period) _ nofun rfl (not_wakes nofun) ⟨nofun, nofun⟩ ⟨rfl, nofun, nofun⟩ rfl
      | preSched => exact .rxLeft (.nap .preSched) _ nofun rfl (not_wakes nofun) ⟨nofun, nofun⟩ ⟨rfl, nofun, nofun⟩ rfl
    · exact .quiet _ _ (quiet_at rfl rfl nofun nofun (not_wakes nofun) nofun nofun)
  | trigerRx => exact .quiet _ _ ⟨rfl, rfl, rfl, rfl, rfl, nofun, nofun, .inl rfl, .inr ⟨rfl, nofun, nofun⟩⟩
  | leave again =>
    cases r with
    | irq => exact .irqLeft .idle _ rfl rfl (not_wakes nofun) nofun nofun rfl
    | rxBh => exact .rxLeft .recheck _ nofun rfl (not_wakes nofun) ⟨nofun, nofun⟩ rfl rfl
    | period =>
      refine .rxLeft _ _ nofun rfl (not_wakes nofun) ⟨nofun, nofun⟩ ?_ rfl
      repeat' split
      all_goals exact nofun
    | preSched =>
      refine .rxLeft _ _ nofun rfl (not_wakes nofun) ⟨nofun, nofun⟩ ?_ rfl
      split
      all_goals exact nofun

end

section
variable {s t : SdioRx} {h h' : SdioHost} {b : SdioBus}

theorem Kept.same (hk : Kept s) (hc : t.chain = s.chain) (hf : t.freed = s.freed) (hr : t.reads = s.reads) :
    Kept t := by
  refine ⟨?_, ?_, ?_⟩
  · rw [hc]
    exact hk.inOrder
  · rw [hc, hf, hr]
    exact hk.once
  · rw [hf]
    exact hk.freed

theorem Kept.lt (hk : Kept s) {k : Nat} (hm : k ∈ s.chain) : k < s.reads :=
  List.mem_range.mp (hk.once.mem_iff.mp (List.mem_append_left _ hm))

theorem Kept.length (hk : Kept s) : s.chain.length + s.freed.length = s.reads := by
  have := hk.once.length_eq
  rwa [List.length_append, List.length_map, List.length_range] at this

theorem Kept.read (hk : Kept s) (hc : t.chain = s.chain ++ [s.reads]) (hf : t.freed = s.freed)
    (hr : t.reads = s.reads + 1) : Kept t := by
  refine ⟨?_, ?_, ?_⟩
  · rw [hc, List.pairwise_append]
    refine ⟨hk.inOrder, List.pairwise_singleton _ _, fun a ha k hk' => ?_⟩
    rw [List.mem_singleton.mp hk']
    exact hk.lt ha
  · rw [hc, hf, hr, List.range_succ, List.append_assoc]
    have hcomm : ([s.reads] ++ s.freed.map Prod.fst).Perm (s.freed.map Prod.fst ++ [s.reads]) := List.perm_append_comm
    have hswap := hcomm.append_left s.chain
    rw [← List.append_assoc s.chain (s.freed.map Prod.fst)] at hswap
    exact hswap.trans (hk.once.append_right _)
  · rw [hf]
    exact hk.freed

theorem Kept.free (hk : Kept s) {k : Nat} (l₁ l₂ : List Nat) (hs : s.chain = l₁ ++ k :: l₂) (hc : t.chain = l₁ ++ l₂)
    (hf : t.freed = s.freed ++ [(k, true)]) (hr : t.reads = s.reads) : Kept t := by
  have hord := hk.inOrder
  have honce := hk.once
  rw [hs] at hord honce
  refine ⟨?_, ?_, ?_⟩
  · rw [hc]
    exact hord.sublist (List.sublist_append_right [k] l₂ |>.append_left l₁)
  · rw [hc, hf, hr]
    refine List.Perm.trans ?_ honce
    rw [List.perm_iff_count]
    intro a
    simp only [List.map_append, List.map_cons, List.map_nil, List.count_append, List.count_cons, List.count_nil]
    omega
  · rw [hf]
    intro p hp
    rcases List.mem_append.mp hp with hp | hp
    · exact hk.freed p hp
    · rw [List.mem_singleton.mp hp]

theorem hand_eq (hh : s.host = some h) : s.hand = h.hand := by simp only [hand, hh]

theorem Quiet.chain (hq : Quiet h h' s t) (hh : s.host = some h) : t.chain = s.chain := by
  have hl := hq.lists
  simp only [Prod.mk.injEq] at hl
  obtain ⟨h1, h2, h3, -, -⟩ := hl
  simp only [SdioRx.chain, h1, h2, h3, hand_eq hh, hand_eq hq.host, hq.hand]

theorem Kept.noHand (hk : Kept s)
    (hl : (t.passed, t.localList, t.rxFrameQueue, t.freed, t.reads) =
      (s.passed, s.localList, s.rxFrameQueue, s.freed, s.reads)) (hs : s.hand = []) (ht : t.hand = []) : Kept t := by
  simp only [Prod.mk.injEq] at hl
  obtain ⟨h1, h2, h3, h4, h5⟩ := hl
  refine hk.same ?_ h4 h5
  rw [SdioRx.chain, SdioRx.chain, h1, h2, h3, hs, ht]

theorem HostSpec.kept (hs : HostSpec b h s t) (hh : s.host = some h) (hclean : ¬Stale b h) (hk : Kept s) : Kept t := by
  cases hs with
  | quiet h' _ hq =>
    have hl := hq.lists
    simp only [Prod.mk.injEq] at hl
    exact hk.same (hq.chain hh) hl.2.2.2.1 hl.2.2.2.2
  | read _ hpc ht =>
    subst ht
    refine hk.read ?_ rfl rfl
    simp [SdioRx.chain, SdioRx.hand, hh, hostAt, SdioHost.hand, hpc]
  | freed k _ hpc hskb hterm ht =>
    subst ht
    refine hk.free (k := k) (s.passed ++ s.localList ++ s.rxFrameQueue) [] ?_ ?_ ?_ rfl
    · simp [SdioRx.chain, SdioRx.hand, hh, SdioHost.hand, hpc, hskb]
    · simp [SdioRx.chain, SdioRx.hand, hostAt, SdioHost.hand, freeSkb]
    · simp [hostAt, freeSkb, hterm]
  | stale _ hst _ => exact absurd hst hclean
  | submit k _ hpc hskb ht =>
    subst ht
    refine hk.same ?_ ?_ ?_
    · simp [SdioRx.chain, SdioRx.hand, hh, hostAt, SdioHost.hand, hpc, hskb, submitSkb]
    · simp [submitSkb, hskb, hostAt]
    · simp [submitSkb, hskb, hostAt]
  | short running _ hpc _ ht =>
    rw [ht]
    refine hk.same ?_ rfl rfl
    simp [SdioRx.chain, SdioRx.hand, hh, hostAt, SdioHost.hand, hpc]
  | irqLeft _ _ _ hhand _ _ _ ht => exact ht ▸ hk.noHand rfl ((hand_eq hh).trans hhand) rfl
  | rxLeft _ _ _ hhand _ _ _ ht => exact ht ▸ hk.noHand rfl ((hand_eq hh).trans hhand) rfl

theorem stale_step (hst : Stale b h) (hh : s.host = some h) :
    (s.hostStep b h).chain = s.chain ∧ (s.hostStep b h).reads = s.reads ∧
      (s.hostStep b h).freed.length = s.freed.length + 1 := by
  obtain ⟨r, pc, skb, reg, cnt⟩ := h
  obtain ⟨hskb, hpc⟩ := hst
  obtain ⟨k, rfl⟩ := Option.isSome_iff_exists.mp hskb
  rcases hpc with ⟨rfl, hb⟩ | ⟨rfl, h0, hi⟩
  · refine ⟨?_, ?_, ?_⟩
    · simp [SdioRx.chain, SdioRx.hand, hh, SdioHost.hand, hostStep, hb, readErr, freeSkb, hostAt]
    · simp [hostStep, hb, readErr, freeSkb, hostAt]
    · simp [hostStep, hb, readErr, freeSkb, hostAt]
  · have h0 : nextReadLen reg ≠ 0 := h0
    have hi : invalidReadLen reg = true := hi
    refine ⟨?_, ?_, ?_⟩
    · simp [SdioRx.chain, SdioRx.hand, hh, SdioHost.hand, hostStep, h0, hi, readErr, freeSkb, hostAt, atbmBhHalt]
    · simp [hostStep, h0, hi, readErr, freeSkb, hostAt, atbmBhHalt]
    · simp [hostStep, h0, hi, readErr, freeSkb, hostAt, atbmBhHalt]

theorem Kept.not_stale (hk : Kept s) (hh : s.host = some h) (hkt : Kept (s.hostStep b h)) : ¬Stale b h := by
  intro hst
  obtain ⟨hc, hr, hf⟩ := stale_step hst hh
  have hs := hk.length
  have ht := hkt.length
  rw [hc, hr, hf] at ht
  omega

end

section
variable {s t : SdioRx} {h h' : SdioHost} {b : SdioBus}

theorem Inv.rxAt (hi : Inv s) (hh : s.host = some h) (hr : h.reader ≠ .irq) : s.rx = .locked h.reader :=
  (hi.rxLocked h.reader).mpr ⟨hr, h, hh, rfl⟩

theorem Inv.rxFree (hi : Inv s) (hh : s.host = some h) (hr : h.reader = .irq) (r : SdioReader) : s.rx ≠ .locked r := by
  intro hrx
  obtain ⟨hne, h₁, hh₁, rfl⟩ := (hi.rxLocked r).mp hrx
  obtain rfl : h = h₁ := Option.some.inj (hh.symm.trans hh₁)
  exact hne hr

theorem Inv.irqFree (hi : Inv s) (hh : s.host = some h) (hr : h.reader ≠ .irq) : s.irq ≠ .locked := by
  intro hirq
  obtain ⟨h₁, hh₁, hr₁⟩ := hi.irqLocked.mp hirq
  obtain rfl : h = h₁ := Option.some.inj (hh.symm.trans hh₁)
  exact hr hr₁

theorem Inv.held (hi : Inv s) (hh : s.host = some h) (ht : t.host = some h') (hr : h'.reader = h.reader)
    (hc : (t.bhRunning, t.rx, t.irq) = (s.bhRunning, s.rx, s.irq)) (hl : t.localList = s.localList)
    (hk : h'.pc = .gotData ∨ h'.pc = .rxHandle → h'.skbRx.isSome = true)
    (hn : h'.reader = .rxBh → ∀ r f, h'.pc = .submitted r f → t.rxFrameQueue ≠ []) : Inv t := by
  simp only [Prod.mk.injEq] at hc
  obtain ⟨h1, h2, h3⟩ := hc
  refine ⟨fun r => ?_, ?_, ?_, ?_, ?_, ?_, ?_, ?_⟩
  · rw [h2, hi.rxLocked r, hh, ht]
    simp [hr]
  · rw [h3, hi.irqLocked, hh, ht]
    simp [hr]
  · rw [h1, h2]
    exact hi.running
  · rw [h2, hl]
    exact hi.localList
  · rw [h2]
    exact hi.wants
  · rw [h2]
    exact hi.naps
  · rintro h₁ hh₁
    obtain rfl : h' = h₁ := Option.some.inj (ht.symm.trans hh₁)
    exact hk
  · rintro h₁ hh₁
    obtain rfl : h' = h₁ := Option.some.inj (ht.symm.trans hh₁)
    exact hn

theorem Inv.rxGivesUp (hi : Inv s) (hh : s.host = some h) (hr : h.reader ≠ .irq) {pc : SdioRxPc}
    (hp : pc.After h.reader) : Inv { s with host := none, rx := pc } := by
  have hrx := hi.rxAt hh hr
  have hloc : s.localList = [] := hi.localList (by rw [hrx]; nofun)
  have hrun : s.bhRunning = (h.reader == .rxBh) := by
    rw [hi.running, hrx]
    cases h.reader
    all_goals rfl
  have hnot : ¬∃ h₁, (none : Option SdioHost) = some h₁ ∧ h₁.reader = SdioReader.irq := by
    rintro ⟨h₁, hh₁, -⟩
    cases hh₁
  refine ⟨fun r => ⟨fun hl => ?_, fun hl => ?_⟩, ⟨fun hl => absurd hl (hi.irqFree hh hr), fun hl => absurd hl hnot⟩,
    ?_, fun _ => hloc, fun hw => ?_, fun r hn => ?_, fun _ hnone => (nomatch hnone),
    fun _ hnone => (nomatch hnone)⟩
  · obtain rfl : pc = .locked r := hl
    exact hp.elim
  · obtain ⟨-, h₁, hh₁, -⟩ := hl
    cases hh₁
  · show s.bhRunning = pc.processing
    rw [hrun]
    unfold SdioRxPc.After at hp
    split at hp
    all_goals first | exact hp.elim | simp_all [SdioRxPc.processing]
  · obtain rfl : pc = .want .irq := hw
    exact hp.elim
  · obtain rfl : pc = .nap r := hn
    obtain ⟨rfl, hne, hne'⟩ := hp
    exact ⟨hne, hne'⟩

theorem Inv.irqGivesUp (hi : Inv s) (hh : s.host = some h) (hr : h.reader = .irq) {pc : SdioIrqPc} (hp : pc ≠ .locked) :
    Inv { s with host := none, irq := pc } := by
  refine ⟨fun r => ⟨fun hl => absurd hl (hi.rxFree hh hr r), ?_⟩, ⟨fun hl => absurd hl hp, ?_⟩, hi.running,
    hi.localList, hi.wants, hi.naps, fun _ hnone => (nomatch hnone),
    fun _ hnone => (nomatch hnone)⟩
  · rintro ⟨-, h₁, hh₁, -⟩
    cases hh₁
  · rintro ⟨h₁, hh₁, -⟩
    cases hh₁

theorem HostSpec.inv (hs : HostSpec b h s t) (hh : s.host = some h) (hclean : ¬Stale b h) (hi : Inv s) : Inv t := by
  cases hs with
  | quiet h' _ hq =>
    have hl := hq.lists
    simp only [Prod.mk.injEq] at hl
    exact hi.held hh hq.host hq.reader hq.control hl.2.1 hq.skb fun _ r f hp => absurd hp (hq.notSubmitted r f)
  | read _ _ ht => exact ht ▸ hi.held hh rfl rfl rfl rfl (fun _ => rfl) nofun
  | freed k _ _ _ _ ht => exact ht ▸ hi.held hh rfl rfl rfl rfl nofun nofun
  | stale _ hst _ => exact absurd hst hclean
  | submit k _ _ hskb ht =>
    rw [ht, submitSkb, hskb]
    exact hi.held hh rfl rfl rfl rfl nofun fun _ _ _ _ => by simp [hostAt]
  | short running _ _ _ ht =>
    rw [ht]
    exact hi.held hh rfl rfl rfl rfl nofun nofun
  | irqLeft pc _ hr _ _ _ hp ht => exact ht ▸ hi.irqGivesUp hh hr hp
  | rxLeft pc _ hr _ _ _ hp ht => exact ht ▸ hi.rxGivesUp hh hr hp

end

/-! ## The steps of the two threads outside the lock -/

section
variable {s t : SdioRx} {h h' : SdioHost} {b : SdioBus} {expired : Bool}

theorem splice_chain (s : SdioRx) : s.splice.chain = s.chain := by
  show s.passed ++ (s.localList ++ s.rxFrameQueue) ++ [] ++ s.hand = _
  rw [List.append_nil, chain, ← List.append_assoc s.passed]

theorem fresh_hand {r : SdioReader} {pc : SdioHostPc} (hp : pc = .enter ∨ pc = .rxCheck) :
    SdioHost.hand ⟨r, pc, none, 0#16, 0#8⟩ = [] := by
  rcases hp with rfl | rfl
  all_goals rfl

theorem hand_none (hh : s.host = none) : s.hand = [] := by simp only [hand, hh]

theorem Kept.rxStep (hk : Kept s) (he : (SdioRxAct.rx expired).Enabled s) : Kept (s.rxStep expired) := by
  have he' := he
  simp only [SdioRxAct.Enabled] at he'
  unfold SdioRx.rxStep
  split
  · split
    · exact hk.same rfl rfl rfl
    split
    · exact hk.same rfl rfl rfl
    · exact hk.same rfl rfl rfl
  · exact hk.same (splice_chain _) rfl rfl
  · split
    · exact hk.same rfl rfl rfl
    · next k l hl =>
      split
      · next hterm =>
        refine hk.free (k := k) s.passed (l ++ s.rxFrameQueue ++ s.hand) ?_ ?_ ?_ rfl
        · simp [chain, hl]
        · simp [chain, freeSkb, hand]
        · have hsame : SdioRx.terminating { s with localList := l } = true := hterm
          simp only [freeSkb, hsame]
      · refine hk.same ?_ rfl rfl
        simp [chain, hl, hand]
  · next r hrx =>
    rw [hrx] at he'
    exact hk.noHand rfl (hand_none he') (fresh_hand (r := r) (.inl rfl))
  · next r hrx =>
    rw [hrx] at he'
    exact hk.noHand rfl (hand_none he') (fresh_hand (r := r) (.inr rfl))
  · split
    · exact hk.same rfl rfl rfl
    · exact hk.same (splice_chain _) rfl rfl
  · exact hk.same rfl rfl rfl
  · exact hk

def apart : SdioRxPc → Bool
  | .locked _ | .nap _ | .want .irq => false
  | .wake _ | .start | .process | .want _ | .recheck | .sleep => true

theorem not_locked_of_apart {pc : SdioRxPc} (ha : apart pc = true) (r : SdioReader) : pc ≠ .locked r := by
  rintro rfl
  cases ha

theorem Inv.rxGoes (hi : Inv s) (hs : apart s.rx = true) (hp : apart t.rx = true) (hh : t.host = s.host) (hirq : t.irq = s.irq)
    (hrun : t.bhRunning = t.rx.processing) (hl : t.rx ≠ .process → t.localList = []) : Inv t := by
  refine ⟨fun r => ?_, ?_, hrun, hl, fun hw => ?_, fun r hr => ?_, ?_, fun h₁ hh₁ hr => ?_⟩
  · rw [hh]
    exact ⟨fun hpc => absurd hpc (not_locked_of_apart hp r), fun hne => absurd ((hi.rxLocked r).mpr hne) (not_locked_of_apart hs r)⟩
  · rw [hirq, hh]
    exact hi.irqLocked
  · rw [hw] at hp
    cases hp
  · rw [hr] at hp
    cases hp
  · rw [hh]
    exact hi.skb
  · have hne : h₁.reader ≠ .irq := by
      rw [hr]
      simp
    exact absurd (hr ▸ hi.rxAt (hh ▸ hh₁) hne) (not_locked_of_apart hs .rxBh)

theorem Inv.hold (hi : Inv s) (hh : s.host = none) {r : SdioReader} (hr : r ≠ .irq) {pc : SdioHostPc}
    (hp : pc = .enter ∨ pc = .rxCheck) (hl : s.localList = []) (hrun : s.bhRunning = (r == .rxBh)) :
    Inv (s.hold r pc) := by
  have hirq : s.irq ≠ .locked := by
    intro hno
    obtain ⟨h, hh', -⟩ := hi.irqLocked.mp hno
    rw [hh] at hh'
    cases hh'
  refine ⟨fun r' => ?_, ⟨fun hno => absurd hno hirq, ?_⟩, ?_, fun _ => hl, nofun, nofun, ?_, ?_⟩
  · constructor
    · intro hrx
      cases hrx
      exact ⟨hr, _, rfl, rfl⟩
    · rintro ⟨-, h₁, hh₁, rfl⟩
      cases hh₁
      rfl
  · rintro ⟨h₁, hh₁, hr₁⟩
    cases hh₁
    exact absurd hr₁ hr
  · show s.bhRunning = _
    rw [hrun]
    cases r
    all_goals rfl
  · rintro h₁ hh₁ hpc
    cases hh₁
    rcases hp with rfl | rfl
    all_goals rcases hpc with hpc | hpc <;> cases hpc
  · rintro h₁ hh₁ - running full hpc
    cases hh₁
    rcases hp with rfl | rfl
    all_goals cases hpc

theorem Inv.rxStep (hi : Inv s) (he : (SdioRxAct.rx expired).Enabled s) : Inv (s.rxStep expired) := by
  have he' := he
  simp only [SdioRxAct.Enabled] at he'
  have hrun := hi.running
  have hloc := hi.localList
  unfold SdioRx.rxStep
  cases hrx : s.rx with
  | locked r =>
    rw [hrx] at he'
    exact he'.elim
  | wake expired =>
    rw [hrx] at hrun hloc
    have hs : apart s.rx = true := hrx ▸ rfl
    simp only
    split
    · exact hi.rxGoes hs rfl rfl rfl hrun fun _ => hloc (by simp)
    split
    · exact hi.rxGoes hs rfl rfl rfl hrun fun _ => hloc (by simp)
    · by_cases hp : s.preSched = true
      · rw [if_pos hp]
        exact hi.rxGoes hs rfl rfl rfl hrun fun _ => hloc (by simp)
      · rw [if_neg hp]
        exact hi.rxGoes hs rfl rfl rfl hrun fun _ => hloc (by simp)
  | start =>
    have hs : apart s.rx = true := hrx ▸ rfl
    exact hi.rxGoes hs rfl rfl rfl rfl fun hno => absurd rfl hno
  | process =>
    rw [hrx] at hrun
    have hs : apart s.rx = true := hrx ▸ rfl
    simp only
    split
    · next hl => exact hi.rxGoes hs rfl rfl rfl hrun fun _ => hl
    split
    · exact hi.rxGoes hs rfl rfl rfl hrun fun hno => absurd rfl hno
    · exact hi.rxGoes hs rfl rfl rfl hrun fun hno => absurd rfl hno
  | want r =>
    rw [hrx] at he' hrun hloc
    have hr : r ≠ .irq := by
      rintro rfl
      exact hi.wants hrx
    refine hi.hold he' hr (.inl rfl) (hloc (by simp)) (hrun.trans ?_)
    cases r
    all_goals rfl
  | nap r =>
    rw [hrx] at he' hrun hloc
    obtain ⟨hr, hr'⟩ := hi.naps r hrx
    refine hi.hold he' hr (.inr rfl) (hloc (by simp)) (hrun.trans ?_)
    cases r
    all_goals first | rfl | exact absurd rfl hr'
  | recheck =>
    rw [hrx] at hrun hloc
    have hs : apart s.rx = true := hrx ▸ rfl
    simp only
    split
    · exact hi.rxGoes hs rfl rfl rfl rfl fun _ => hloc (by simp)
    · exact hi.rxGoes hs rfl rfl rfl hrun fun hno => absurd rfl hno
  | sleep =>
    rw [hrx] at hrun hloc
    have hs : apart s.rx = true := hrx ▸ rfl
    exact hi.rxGoes hs rfl rfl rfl hrun fun _ => hloc (by simp)

theorem Inv.irqStep (hi : Inv s) (hh : s.host = none) : Inv s.irqStep := by
  refine ⟨fun r => ⟨fun hrx => ?_, ?_⟩, ⟨fun _ => ⟨_, rfl, rfl⟩, fun _ => rfl⟩, hi.running, hi.localList, hi.wants,
    hi.naps, ?_, ?_⟩
  · obtain ⟨-, h₁, hh₁, -⟩ := (hi.rxLocked r).mp hrx
    rw [hh] at hh₁
    cases hh₁
  · rintro ⟨hne, h₁, hh₁, rfl⟩
    cases hh₁
    exact absurd rfl hne
  · rintro h₁ hh₁ hpc
    cases hh₁
    revert hpc
    show (if s.irq = .nap then SdioHostPc.rxCheck else .enter) = _ ∨ _ = _ → _
    split
    all_goals simp
  · rintro h₁ hh₁ hr
    cases hh₁
    cases hr

theorem irqStep_hand (s : SdioRx) : s.irqStep.hand = [] := by
  show SdioHost.hand ⟨.irq, if s.irq = .nap then .rxCheck else .enter, none, 0#16, 0#8⟩ = []
  apply fresh_hand
  split
  · exact .inr rfl
  · exact .inl rfl

end

/-! ## The queue is taken, and what was cut short is read on -/

section
variable {s t : SdioRx} {h h' : SdioHost} {b : SdioBus} {expired : Bool}

theorem locked_inRxBh {r : SdioReader} (hin : (SdioRxPc.locked r).inRxBh = true) : r = .rxBh := by
  cases r with
  | rxBh => rfl
  | _ => cases hin

theorem inRxBh_of_processing {pc : SdioRxPc} (hp : pc.processing = true) : pc.inRxBh = true := by
  rw [SdioRxPc.inRxBh, hp, Bool.or_true]

/-- The queue and the place of the receive thread stay; a wake-up that was about to be requested is requested. -/
theorem Woken.same (hw : Woken s) (hq : t.rxFrameQueue = s.rxFrameQueue) (hrx : t.rx = s.rx)
    (hwake : t.wakeup = true ∨ t.wakeup = s.wakeup ∧ ∀ h, s.host = some h → ¬h.Wakes) : Woken t := by
  intro hne
  rw [hq] at hne
  rw [hrx]
  rcases hwake with hwake | ⟨hwake, hno⟩
  · exact .inr (.inl hwake)
  · rw [hwake]
    rcases hw hne with h1 | h1 | ⟨h, hh, h1⟩
    · exact .inl h1
    · exact .inr (.inl h1)
    · exact absurd h1 (hno h hh)

theorem holder_not_wakes (hh : s.host = some h) (hno : ¬h.Wakes) : ∀ h, s.host = some h → ¬h.Wakes := by
  intro h₁ hh₁
  obtain rfl : h = h₁ := Option.some.inj (hh.symm.trans hh₁)
  exact hno

theorem HostSpec.woken (hs : HostSpec b h s t) (hh : s.host = some h) (hclean : ¬Stale b h) (hi : Inv s)
    (hw : Woken s) : Woken t := by
  cases hs with
  | quiet h' _ hq =>
    have hl := hq.lists
    have hc := hq.control
    simp only [Prod.mk.injEq] at hl hc
    refine hw.same hl.1 hc.2.1 ?_
    rcases hq.wakeup with h1 | ⟨h1, h2⟩
    · exact .inl h1
    · exact .inr ⟨h1, holder_not_wakes hh h2⟩
  | read _ hpc ht =>
    have hno : ¬h.Wakes := not_wakes fun full => by
      rw [hpc]
      nofun
    exact ht ▸ hw.same rfl rfl (.inr ⟨rfl, holder_not_wakes hh hno⟩)
  | freed k _ hpc _ _ ht =>
    have hno : ¬h.Wakes := not_wakes fun full => by
      rw [hpc]
      nofun
    exact ht ▸ hw.same rfl rfl (.inr ⟨rfl, holder_not_wakes hh hno⟩)
  | stale _ hst _ => exact absurd hst hclean
  | submit k _ hpc hskb ht =>
    rw [ht, submitSkb, hskb]
    intro _
    by_cases hr : h.reader = .rxBh
    · left
      show s.rx.inRxBh = true
      rw [hi.rxAt hh (by rw [hr]; nofun), hr]
      rfl
    · cases hrun : s.bhRunning with
      | true =>
        left
        exact inRxBh_of_processing (hi.running.symm.trans hrun)
      | false => exact .inr (.inr ⟨_, rfl, hr, _, rfl⟩)
  | short running _ _ hwake ht =>
    intro _
    rcases hwake with ⟨hr, -⟩ | ⟨-, hwake⟩
    · left
      rw [ht]
      show s.rx.inRxBh = true
      rw [hi.rxAt hh (by rw [hr]; nofun), hr]
      rfl
    · exact .inr (.inl hwake)
  | irqLeft pc _ hr _ hno _ hp ht => exact ht ▸ hw.same rfl rfl (.inr ⟨rfl, holder_not_wakes hh hno⟩)
  | rxLeft pc _ hr _ hno _ hp ht =>
    subst ht
    intro hne
    by_cases hr' : h.reader = .rxBh
    · left
      rw [hr'] at hp
      rw [hp.recheck]
      rfl
    · rcases hw hne with h1 | h1 | ⟨h₁, hh₁, h1⟩
      · rw [hi.rxAt hh hr] at h1
        exact absurd (locked_inRxBh h1) hr'
      · exact .inr (.inl h1)
      · exact absurd h1 (holder_not_wakes hh hno h₁ hh₁)

theorem Woken.rxStep (hw : Woken s) (he : (SdioRxAct.rx expired).Enabled s) : Woken (s.rxStep expired) := by
  have he' := he
  simp only [SdioRxAct.Enabled] at he'
  unfold SdioRx.rxStep
  cases hrx : s.rx with
  | locked r =>
    rw [hrx] at he'
    exact he'.elim
  | wake expired =>
    rw [Woken, hrx] at hw
    simp only
    split
    · exact fun _ => .inl rfl
    · next hno =>
      have hw' : s.rxFrameQueue ≠ [] → ∃ h, s.host = some h ∧ h.Wakes := fun hne =>
        ((hw hne).resolve_left (by rintro ⟨⟩)).resolve_left hno
      split
      · exact fun hne => .inr (.inr (hw' hne))
      · exact fun hne => .inr (.inr (hw' hne))
  | start => exact fun hne => absurd rfl hne
  | process =>
    simp only
    split
    · exact fun _ => .inl rfl
    split
    · exact fun _ => .inl rfl
    · exact fun _ => .inl rfl
  | want r =>
    rw [hrx] at he'
    intro hne
    by_cases hr : r = .rxBh
    · subst hr
      exact .inl rfl
    · rcases hw hne with h1 | h1 | ⟨h, hh, -⟩
      · rw [hrx] at h1
        cases r with
        | rxBh => exact absurd rfl hr
        | _ => cases h1
      · exact .inr (.inl h1)
      · rw [he'] at hh
        cases hh
  | nap r =>
    rw [hrx] at he'
    intro hne
    rcases hw hne with h1 | h1 | ⟨h, hh, -⟩
    · rw [hrx] at h1
      cases h1
    · exact .inr (.inl h1)
    · rw [he'] at hh
      cases hh
  | recheck =>
    simp only
    split
    · next hq => exact fun hne => absurd hq hne
    · exact fun hne => absurd rfl hne
  | sleep =>
    intro hne
    rcases hw hne with h1 | h1
    · rw [hrx] at h1
      cases h1
    · exact .inr h1

theorem Due.same (hd : Due s) (hq : s.rxFrameQueue ≠ [] → t.rxFrameQueue ≠ []) (hrx : t.rx = s.rx)
    (hwake : t.wakeup = true ∨ t.wakeup = s.wakeup) (hcut : t.cut = s.cut)
    (hhost : ∀ h, s.host = some h → h.reader = .rxBh → h.pc = .enter ∨ h.pc = .ctrl →
      ∃ h', t.host = some h' ∧ h'.reader = .rxBh ∧ (h'.pc = .enter ∨ h'.pc = .ctrl)) : Due t := by
  intro hc
  rw [hrx]
  rcases hd (hcut.symm.trans hc) with h1 | h1 | ⟨h, hh, hr, hp⟩ | ⟨h1, h2⟩
  · rcases hwake with hwake | hwake
    · exact .inl hwake
    · exact .inl (hwake.trans h1)
  · exact .inr (.inl h1)
  · exact .inr (.inr (.inl (hhost h hh hr hp)))
  · exact .inr (.inr (.inr ⟨h1, hq h2⟩))

theorem HostSpec.due (hs : HostSpec b h s t) (hh : s.host = some h) (hclean : ¬Stale b h) (hi : Inv s)
    (hd : Due s) : Due t := by
  have hat : ∀ {pc : SdioHostPc}, h.pc = pc → pc ≠ .enter → pc ≠ .ctrl → ∀ h₁, s.host = some h₁ → h₁.reader = .rxBh →
      h₁.pc = .enter ∨ h₁.pc = .ctrl → ∃ h', t.host = some h' ∧ h'.reader = .rxBh ∧ (h'.pc = .enter ∨ h'.pc = .ctrl) := by
    intro pc hpc hne hnc h₁ hh₁ _ hp
    obtain rfl : h = h₁ := Option.some.inj (hh.symm.trans hh₁)
    rw [hpc] at hp
    exact absurd hp (by simp [hne, hnc])
  cases hs with
  | quiet h' _ hq =>
    rcases hq.cut with hcut | ⟨hcut, hnc, hnext⟩
    · exact fun hc => absurd (hcut.symm.trans hc) (by decide)
    have hl := hq.lists
    have hc := hq.control
    simp only [Prod.mk.injEq] at hl hc
    refine hd.same (fun hne => by rwa [hl.1]) hc.2.1 ?_ hcut ?_
    · rcases hq.wakeup with h1 | ⟨h1, -⟩
      · exact .inl h1
      · exact .inr h1
    · intro h₁ hh₁ hr hp
      obtain rfl : h = h₁ := Option.some.inj (hh.symm.trans hh₁)
      exact ⟨h', hq.host, hq.reader.trans hr, .inr (hnext (hp.resolve_right hnc) hr)⟩
  | read _ hpc ht => exact ht ▸ hd.same id rfl (.inr rfl) rfl (ht ▸ hat hpc nofun nofun)
  | freed k _ hpc _ _ ht => exact ht ▸ hd.same id rfl (.inr rfl) rfl (ht ▸ hat hpc nofun nofun)
  | stale _ hst _ => exact absurd hst hclean
  | submit k _ hpc hskb ht =>
    rw [submitSkb, hskb] at ht
    refine hd.same ?_ ?_ (.inr ?_) ?_ (hat hpc nofun nofun)
    · rw [ht]
      intro _ hno
      exact absurd hno (by simp [hostAt])
    all_goals
      rw [ht]
      rfl
  | short running _ hpc hwake ht =>
    intro _
    rcases hwake with ⟨hr, -⟩ | ⟨-, hwake⟩
    · right; right; right
      rw [ht]
      refine ⟨?_, hi.nonempty h hh hr running true hpc⟩
      show s.rx.processing = true
      rw [hi.rxAt hh (by rw [hr]; nofun), hr]
      rfl
    · exact .inl hwake
  | irqLeft pc _ hr _ _ _ hp ht =>
    refine ht ▸ hd.same id rfl (.inr rfl) rfl fun h₁ hh₁ hr₁ => ?_
    obtain rfl : h = h₁ := Option.some.inj (hh.symm.trans hh₁)
    rw [hr] at hr₁
    cases hr₁
  | rxLeft pc _ hr _ _ hpc hp ht =>
    subst ht
    intro hc
    have hrx := hi.rxAt hh hr
    rcases hd hc with h1 | h1 | ⟨h₁, hh₁, -, h1⟩ | ⟨h1, h2⟩
    · exact .inl h1
    · rw [hrx] at h1
      cases h1
    · obtain rfl : h = h₁ := Option.some.inj (hh.symm.trans hh₁)
      exact absurd h1 (by simp [hpc])
    · right; right; right
      refine ⟨?_, h2⟩
      rw [hrx] at h1
      have hr' : h.reader = .rxBh := locked_inRxBh (inRxBh_of_processing h1)
      rw [hr'] at hp
      rw [hp.recheck]
      rfl

theorem Due.rxStep (hd : Due s) (he : (SdioRxAct.rx expired).Enabled s) : Due (s.rxStep expired) := by
  have he' := he
  simp only [SdioRxAct.Enabled] at he'
  unfold SdioRx.rxStep
  cases hrx : s.rx with
  | locked r =>
    rw [hrx] at he'
    exact he'.elim
  | wake expired =>
    rw [Due, hrx] at hd
    simp only
    split
    · exact fun _ => .inr (.inl rfl)
    · next hno =>
      have hd' : s.cut = true → ∃ h, s.host = some h ∧ h.reader = .rxBh ∧ (h.pc = .enter ∨ h.pc = .ctrl) := by
        intro hc
        rcases hd hc with h1 | h1 | h1 | ⟨h1, -⟩
        · exact absurd h1 hno
        · cases h1
        · exact h1
        · cases h1
      split
      · exact fun hc => .inr (.inr (.inl (hd' hc)))
      · exact fun hc => .inr (.inr (.inl (hd' hc)))
  | start => exact fun _ => .inr (.inl rfl)
  | process =>
    simp only
    split
    · exact fun _ => .inr (.inl rfl)
    split
    · exact fun _ => .inr (.inl rfl)
    · exact fun _ => .inr (.inl rfl)
  | want r =>
    rw [hrx] at he'
    intro hc
    by_cases hr : r = .rxBh
    · subst hr
      exact .inr (.inr (.inl ⟨_, rfl, rfl, .inl rfl⟩))
    · have hno : (SdioRxPc.want r).beforeHost = false ∧ (SdioRxPc.want r).processing = false := by
        cases r with
        | rxBh => exact absurd rfl hr
        | _ => exact ⟨rfl, rfl⟩
      rw [Due, hrx, hno.1, hno.2] at hd
      rcases hd hc with h1 | h1 | ⟨h, hh, -⟩ | ⟨h1, -⟩
      · exact .inl h1
      · cases h1
      · rw [he'] at hh
        cases hh
      · cases h1
  | nap r =>
    rw [hrx] at he'
    rw [Due, hrx] at hd
    intro hc
    rcases hd hc with h1 | h1 | ⟨h, hh, -⟩ | ⟨h1, -⟩
    · exact .inl h1
    · cases h1
    · rw [he'] at hh
      cases hh
    · cases h1
  | recheck =>
    rw [Due, hrx] at hd
    simp only
    split
    · next hq =>
      intro hc
      rcases hd hc with h1 | h1 | h1 | ⟨-, h1⟩
      · exact .inl h1
      · cases h1
      · exact .inr (.inr (.inl h1))
      · exact absurd hq h1
    · exact fun _ => .inr (.inl rfl)
  | sleep =>
    rw [Due, hrx] at hd
    intro hc
    rcases hd hc with h1 | h1 | h1 | ⟨h1, -⟩
    · exact .inl h1
    · cases h1
    · exact .inr (.inr (.inl h1))
    · cases h1

end

section
variable {s t : SdioRx}

theorem Inv.looksAgain (hi : Inv s) : LooksAgain s := by
  intro a he hin
  cases a with
  | host b =>
    obtain ⟨h, hh⟩ := Option.isSome_iff_exists.mp he
    simp only [SdioRxAct.next, hh]
    generalize ht : s.hostStep b h = t
    have hs : HostSpec b h s t := ht ▸ hostStep_spec b (hi.skb h hh)
    left
    cases hs with
    | quiet h' _ hq =>
      have hc := hq.control
      simp only [Prod.mk.injEq] at hc
      rw [hc.2.1]
      exact hin
    | read _ _ ht => exact ht ▸ hin
    | freed _ _ _ _ _ ht => exact ht ▸ hin
    | stale _ _ hrx => rwa [hrx]
    | submit k _ _ hskb ht =>
      rw [ht, submitSkb, hskb]
      exact hin
    | short _ _ _ _ ht =>
      rw [ht]
      exact hin
    | irqLeft _ _ _ _ _ _ _ ht => exact ht ▸ hin
    | rxLeft pc _ hr _ _ _ hp ht =>
      rw [hi.rxAt hh hr] at hin
      rw [locked_inRxBh hin] at hp
      rw [ht, hp.recheck]
      rfl
  | rx expired =>
    simp only [SdioRxAct.next, SdioRx.rxStep]
    cases hrx : s.rx with
    | start => exact .inl rfl
    | process =>
      left
      simp only
      split
      · rfl
      split
      · rfl
      · rfl
    | want r =>
      rw [hrx] at hin
      left
      cases r with
      | rxBh => rfl
      | _ => cases hin
    | recheck =>
      simp only
      split
      · next hq => exact .inr hq
      · exact .inl rfl
    | locked r =>
      rw [hrx] at hin
      exact .inl (by simp only [hrx]; exact hin)
    | _ =>
      rw [hrx] at hin
      cases hin
  | irq => exact .inl hin
  | flags => exact .inl hin

theorem Inv.start : Inv sdioRxStart where
  rxLocked r := by simp [sdioRxStart]
  irqLocked := by simp [sdioRxStart]
  running := rfl
  localList _ := rfl
  wants := nofun
  naps := nofun
  skb _ hnone := nomatch hnone
  nonempty _ hnone := nomatch hnone

theorem Good.start : Good sdioRxStart where
  woken := fun hne => absurd rfl hne
  looksAgain := Inv.start.looksAgain
  kept := ⟨.nil, .nil, nofun⟩
  due := nofun

end

end SdioRx

/-- No read sequence fails that has handed on a message. -/
def SdioRxAct.Clean (s : SdioRx) : SdioRxAct → Prop
  | host b => ∀ h ∈ s.host, ¬SdioRx.Stale b h
  | _ => True

instance (b : SdioBus) (h : SdioHost) : Decidable (SdioRx.Stale b h) := inferInstanceAs (Decidable (_ ∧ (_ ∧ _ ∨ _ ∧ _ ∧ _)))

instance SdioRxAct.decClean (s : SdioRx) (a : SdioRxAct) : Decidable (a.Clean s) :=
  match a with
  | host b => inferInstanceAs (Decidable (∀ h ∈ s.host, ¬SdioRx.Stale b h))
  | rx _ | irq | flags .. => .isTrue trivial

namespace SdioRx

variable {s : SdioRx} {a : SdioRxAct}

theorem Inv.next (hi : Inv s) (he : a.Enabled s) (hc : a.Clean s) : Inv (a.next s) := by
  cases a with
  | host b =>
    obtain ⟨h, hh⟩ := Option.isSome_iff_exists.mp he
    simp only [SdioRxAct.next, hh]
    exact (hostStep_spec b (hi.skb h hh)).inv hh (hc h hh) hi
  | rx expired => exact hi.rxStep he
  | irq => exact hi.irqStep he.2
  | flags => exact ⟨hi.rxLocked, hi.irqLocked, hi.running, hi.localList, hi.wants, hi.naps, hi.skb, hi.nonempty⟩

theorem Good.next (hg : Good s) (hi : Inv s) (he : a.Enabled s) (hc : a.Clean s) : Good (a.next s) := by
  have hagain := (hi.next he hc).looksAgain
  cases a with
  | host b =>
    obtain ⟨h, hh⟩ := Option.isSome_iff_exists.mp he
    simp only [SdioRxAct.next, hh] at hagain ⊢
    have hs := hostStep_spec (s := s) b (hi.skb h hh)
    exact ⟨hs.woken hh (hc h hh) hi hg.woken, hagain, hs.kept hh (hc h hh) hg.kept, hs.due hh (hc h hh) hi hg.due⟩
  | rx expired => exact ⟨hg.woken.rxStep he, hagain, hg.kept.rxStep he, hg.due.rxStep he⟩
  | irq =>
    have hno : ∀ h, s.host ≠ some h := by simp [he.2]
    refine ⟨hg.woken.same rfl rfl (.inr ⟨rfl, fun h hh => absurd hh (hno h)⟩), hagain, ?_,
      hg.due.same id rfl (.inr rfl) rfl fun h hh => absurd hh (hno h)⟩
    exact hg.kept.noHand rfl (hand_none he.2) (irqStep_hand s)
  | flags => exact ⟨hg.woken, hagain, hg.kept.same rfl rfl rfl, hg.due⟩

theorem Good.clean (hg : Good s) (ht : Good (a.next s)) : a.Clean s := by
  cases a with
  | host b =>
    intro h hm
    have hh : s.host = some h := hm
    have hkt := ht.kept
    simp only [SdioRxAct.next, hh] at hkt
    exact hg.kept.not_stale hh hkt
  | _ => trivial

end SdioRx

/-- **The SDIO receive path.** -/
theorem sdioReceive_kept {s t : SdioRx} {l : List (SdioRx × SdioRxAct)} (h0 : sdioReceiving.init s)
    (h : Path sdioReceiving s l t) : ((∀ p ∈ l, p.1.Good) ∧ t.Good) ↔ ∀ p ∈ l, p.2.Clean p.1 := by
  obtain rfl : s = sdioRxStart := h0
  refine h.exact (I := SdioRx.Inv) (P := SdioRx.Good) (C := fun s a => a.Clean s) ?_ ?_ .start .start
  · rintro s a t hi hg ⟨he, rfl⟩ hc
    exact ⟨hi.next he hc, hg.next hi he hc⟩
  · rintro s a t - hg ⟨-, rfl⟩ ht
    exact hg.clean ht

/-- A message of the register `reg`, with the register `next` after it. -/
def sdioMessage (reg next : BitVec 16) : List SdioRxAct :=
  [.host ⟨true, true, true, reg⟩, .host ⟨true, true, true, next⟩] ++ List.replicate 3 (.host ⟨true, true, true, 0#16⟩)

/-- The interrupt thread reads two messages, the second one after a piggybacked length, and the receive thread
takes them and sleeps again. -/
def sdioRxTwo : List SdioRxAct :=
  [.irq] ++ List.replicate 2 (.host ⟨true, true, true, 0#16⟩) ++ sdioMessage 8#16 8#16 ++
    (sdioMessage 8#16 0#16).tail ++ List.replicate 4 (.host ⟨true, true, true, 0#16⟩) ++
    List.replicate 6 (.rx false) ++ List.replicate 3 (.host ⟨true, true, true, 0#16⟩) ++
    List.replicate 3 (.rx false) ++ List.replicate 4 (.host ⟨true, true, true, 0#16⟩)

theorem sdioReceive_kept_two :
    let t := sdioRxTwo.foldl SdioRxAct.next sdioRxStart
    (t.passed, t.freed, t.rx, t.irqEnabled) = ([0, 1], [], SdioRxPc.sleep, true) ∧ t.Good :=
  ⟨by decide, ((sdioReceive_kept rfl (.ofFires (l := sdioRxTwo) (by decide))).mpr (by decide)).2⟩

/-- A message is on the queue, the register is read again, and the read fails. -/
def sdioRxLost : List SdioRxAct :=
  [.irq] ++ List.replicate 2 (.host ⟨true, true, true, 0#16⟩) ++ sdioMessage 8#16 0#16 ++
    [.host ⟨false, true, true, 0#16⟩] ++ List.replicate 3 (.rx false)

/-- A message that is freed although the bus does not terminate, and then passed on. -/
theorem sdioReceive_freed_early :
    ∃ s t l, sdioReceiving.init s ∧ Path sdioReceiving s l t ∧ t.terminating = false ∧
      t.freed = [(0, false)] ∧ t.passed = [0] ∧ ¬t.Good := by
  refine ⟨sdioRxStart, _, _, rfl, .ofFires (l := sdioRxLost) (by decide), by decide, by decide, by decide, ?_⟩
  intro hg
  exact absurd (hg.kept.freed (0, false) (by decide)) (by decide)

end AtbmWifi
