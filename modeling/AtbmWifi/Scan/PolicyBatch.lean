import AtbmWifi.Scan.Policy

/-!
# What one call prepares

`Tried` holds in the loop over the channels, `Left` when it is left for `start_scan`.  From them `Kept` is carried through
the turns over the policies (`prepTurns_spec`): for each policy the positions that were taken are those of the batches,
in order, and nothing of its band before the index was left out.
-/

namespace AtbmWifi

namespace ScanPolicy

section

variable {v : Visit} {req : List Chan} {i0 : Nat} {t0 t : Try} {i : Nat}

/-- The loop at position `i`. -/
structure Tried (v : Visit) (req : List Chan) (i0 : Nat) (t0 : Try) (i : Nat) (t : Try) : Prop where
  le : i0 ≤ i ∧ i ≤ req.length
  sorted : t.chans.Pairwise (· < ·)
  from_start : ∀ k ∈ t.chans, i0 ≤ k
  behind : ∀ k ∈ t.chans, k < t.scanChannelIdx
  band : ∀ k ∈ t.chans, ∃ c, req[k]? = some c ∧ c.band = v.policy.band
  count : t.scanNChannels = t0.scanNChannels + t.chans.length
  idx : t.scanNChannels ≤ t.scanChannelIdx ∧ t0.scanChannelIdx ≤ t.scanChannelIdx ∧ t.scanChannelIdx ≤ i
  grown : t.chans ≠ [] → t0.scanChannelIdx < t.scanChannelIdx
  taken : ∀ k, (k, true) ∈ t.offered ↔ k ∈ t.chans
  covered : ∀ k, i0 ≤ k → k < i → ∀ c, req[k]? = some c → c.band = v.policy.band → ∃ a, (k, a) ∈ t.offered
  space : t.chans.length ≤ v.scanChannelSpace
  bug : t.bug = t0.bug

structure Trying (v : Visit) (req : List Chan) (i0 : Nat) (t0 : Try) (i : Nat) (t : Try) : Prop
    extends Tried v req i0 t0 i t where
  room : i < req.length → t.chans.length < v.scanChannelSpace
  notOper : ∀ k ∈ t.chans, ∀ c, req[k]? = some c → c.hwValue ≠ v.operChannel
  unmarked : t.onlyProb = t0.onlyProb

structure Left (v : Visit) (req : List Chan) (i0 : Nat) (t0 t : Try) : Prop where
  tried : ∃ i, Tried v req i0 t0 i t
  nonempty : t.chans ≠ []
  marked : t.onlyProb = true ↔ t0.onlyProb = true ∨ ∃ k ∈ t.chans, ∃ c, req[k]? = some c ∧ c.hwValue = v.operChannel
  alone : (∃ k ∈ t.chans, ∃ c, req[k]? = some c ∧ c.hwValue = v.operChannel) → t.chans.length = 1

theorem Trying.skipBand {c : Chan} (h : Trying v req i0 t0 i t) (hc : req[i]? = some c) (hband : c.band ≠ v.policy.band) :
    Trying v req i0 t0 (i + 1) t := by
  have hi : i < req.length := (List.getElem?_eq_some_iff.mp hc).1
  obtain ⟨hle, hidx⟩ := h.le
  refine { h with le := ⟨by omega, hi⟩, idx := ?_, covered := ?_, room := fun _ => h.room hi }
  · obtain ⟨h1, h2, h3⟩ := h.idx
    exact ⟨h1, h2, Nat.le_succ_of_le h3⟩
  · intro k hk0 hk d hd hb
    by_cases hki : k = i
    · subst hki
      rw [hc] at hd
      exact absurd (Option.some.inj hd ▸ hb) hband
    · exact h.covered k hk0 (by omega) d hd hb

theorem Trying.refused {c : Chan} (h : Trying v req i0 t0 i t) (hc : req[i]? = some c) (noIr : Chan → Bool) :
    Trying v req i0 t0 (i + 1) { t with noIr := noIr, offered := t.offered ++ [(i, false)] } := by
  have hi : i < req.length := (List.getElem?_eq_some_iff.mp hc).1
  obtain ⟨hle, hidx⟩ := h.le
  refine { h with le := ⟨by omega, hi⟩, idx := ?_, taken := ?_, covered := ?_, room := fun _ => h.room hi }
  · obtain ⟨h1, h2, h3⟩ := h.idx
    exact ⟨h1, h2, Nat.le_succ_of_le h3⟩
  · intro k
    rw [List.mem_append, ← h.taken k]
    simp
  · intro k hk0 hk d hd hb
    by_cases hki : k = i
    · subst hki
      exact ⟨false, List.mem_append_right _ List.mem_cons_self⟩
    · obtain ⟨a, ha⟩ := h.covered k hk0 (by omega) d hd hb
      exact ⟨a, List.mem_append_left _ ha⟩

/-- The variables when the channel at `i` is taken. -/
def Try.take (t : Try) (i : Nat) (noIr : Chan → Bool) : Try :=
  { t with
    noIr := noIr
    offered := t.offered ++ [(i, true)]
    chans := t.chans ++ [i]
    scanNChannels := t.scanNChannels + 1
    scanChannelIdx := i + 1 }

theorem Trying.accepted {c : Chan} (h : Trying v req i0 t0 i t) (hc : req[i]? = some c) (hband : c.band = v.policy.band)
    (noIr : Chan → Bool) : Tried v req i0 t0 (i + 1) (t.take i noIr) := by
  have hi : i < req.length := (List.getElem?_eq_some_iff.mp hc).1
  obtain ⟨hle, -⟩ := h.le
  obtain ⟨h1, h2, h3⟩ := h.idx
  have hroom := h.room hi
  constructor
  · exact ⟨by omega, hi⟩
  · show (t.chans ++ [i]).Pairwise (· < ·)
    rw [List.pairwise_append]
    refine ⟨h.sorted, List.pairwise_singleton _ _, fun a ha b hb => ?_⟩
    have hlt := h.behind a ha
    rw [List.mem_singleton.mp hb]
    omega
  · intro k hk
    rcases List.mem_append.mp hk with hk | hk
    · exact h.from_start k hk
    · rw [List.mem_singleton.mp hk]
      exact hle
  · intro k hk
    show k < i + 1
    rcases List.mem_append.mp hk with hk | hk
    · have hlt := h.behind k hk
      omega
    · rw [List.mem_singleton.mp hk]
      exact Nat.lt_succ_self i
  · intro k hk
    rcases List.mem_append.mp hk with hk | hk
    · exact h.band k hk
    · rw [List.mem_singleton.mp hk]
      exact ⟨c, hc, hband⟩
  · show t.scanNChannels + 1 = _ + (t.chans ++ [i]).length
    rw [List.length_append, h.count]
    rfl
  · show t.scanNChannels + 1 ≤ i + 1 ∧ _ ≤ i + 1 ∧ i + 1 ≤ i + 1
    omega
  · intro _
    show _ < i + 1
    omega
  · intro k
    show (k, true) ∈ t.offered ++ [(i, true)] ↔ k ∈ t.chans ++ [i]
    rw [List.mem_append, List.mem_append, h.taken k]
    simp
  · intro k hk0 hk d hd hb
    by_cases hki : k = i
    · subst hki
      exact ⟨true, List.mem_append_right _ List.mem_cons_self⟩
    · obtain ⟨a, ha⟩ := h.covered k hk0 (by omega) d hd hb
      exact ⟨a, List.mem_append_left _ ha⟩
  · show (t.chans ++ [i]).length ≤ _
    rw [List.length_append]
    exact hroom
  · exact h.bug

/-- **The loop over the channels.** -/
theorem tries_spec (rest : List Chan) (hrest : rest = req.drop i) (h : Trying v req i0 t0 i t) :
    ((tries v rest i t).2 = false → Trying v req i0 t0 req.length (tries v rest i t).1) ∧
    ((tries v rest i t).2 = true → Left v req i0 t0 (tries v rest i t).1) := by
  induction rest generalizing i t with
  | nil =>
    have hlen : req.length ≤ i := by
      have hl := congrArg List.length hrest
      rw [List.length_drop] at hl
      simp only [List.length_nil] at hl
      omega
    have hi : i = req.length := Nat.le_antisymm h.le.2 hlen
    subst hi
    exact ⟨fun _ => h, nofun⟩
  | cons c rest ih =>
    have hi : i < req.length := by
      have hl := congrArg List.length hrest
      rw [List.length_drop, List.length_cons] at hl
      omega
    rw [List.drop_eq_getElem_cons hi] at hrest
    obtain ⟨hcEq, hrest⟩ := List.cons.inj hrest
    have hc : req[i]? = some c := by rw [List.getElem?_eq_getElem hi, hcEq]
    unfold tries
    by_cases hband : c.band = v.policy.band
    · rw [if_neg (not_not_intro hband)]
      by_cases hoper : t.chans ≠ [] ∧ v.operChannel = c.hwValue
      · -- the operating channel waits for the next batch
        rw [if_pos hoper]
        refine ⟨nofun, fun _ => ⟨⟨i, h.toTried⟩, hoper.1, ?_, ?_⟩⟩
        · rw [h.unmarked]
          exact ⟨.inl, fun h' => h'.resolve_right fun ⟨k, hk, d, hd, heq⟩ => h.notOper k hk d hd heq⟩
        · exact fun ⟨k, hk, d, hd, heq⟩ => absurd heq (h.notOper k hk d hd)
      · rw [if_neg hoper]
        dsimp only
        by_cases hskip : (v.policy.offer (scanPolicyRx (some v.policy) t.noIr (v.frames i)) c).1 = .skip
        · rw [if_pos hskip]
          exact ih hrest (h.refused hc _)
        · rw [if_neg hskip]
          have htried := h.accepted hc hband
            (v.policy.offer (scanPolicyRx (some v.policy) t.noIr (v.frames i)) c).2
          by_cases hown : v.operChannel = c.hwValue
          · -- a batch of its own
            have hnil : t.chans = [] := Classical.byContradiction fun hne => hoper ⟨hne, hown⟩
            have hmem : ∃ k ∈ t.chans ++ [i], ∃ d, req[k]? = some d ∧ d.hwValue = v.operChannel :=
              ⟨i, List.mem_append_right _ List.mem_cons_self, c, hc, hown.symm⟩
            rw [if_pos hown]
            refine ⟨nofun, fun _ => ⟨⟨i + 1, { htried with bug := ?_ }⟩, by simp, ?_, fun _ => ?_⟩⟩
            · show (t.bug || decide ((t.chans ++ [i]).length ≠ 1)) = t0.bug
              rw [hnil, h.bug]
              simp
            · exact ⟨fun _ => .inr hmem, fun _ => rfl⟩
            · show (t.chans ++ [i]).length = 1
              rw [hnil]
              rfl
          · rw [if_neg hown]
            have hnot : ∀ k ∈ t.chans ++ [i], ∀ d, req[k]? = some d → d.hwValue ≠ v.operChannel := by
              intro k hk d hd
              rcases List.mem_append.mp hk with hk | hk
              · exact h.notOper k hk d hd
              · rw [List.mem_singleton.mp hk, hc] at hd
                exact fun heq => hown (by rw [Option.some.inj hd, heq])
            by_cases hfull : v.scanChannelSpace ≤ (t.chans ++ [i]).length
            · rw [if_pos hfull]
              refine ⟨nofun, fun _ => ⟨⟨i + 1, htried⟩, by simp, ?_, ?_⟩⟩
              · show t.onlyProb = true ↔ _
                rw [h.unmarked]
                exact ⟨.inl, fun h' => h'.resolve_right fun ⟨k, hk, d, hd, heq⟩ => hnot k hk d hd heq⟩
              · exact fun ⟨k, hk, d, hd, heq⟩ => absurd heq (hnot k hk d hd)
            · rw [if_neg hfull]
              exact ih hrest ⟨htried, fun _ => Nat.not_le.mp hfull, hnot, h.unmarked⟩
    · rw [if_pos hband]
      exact ih hrest (h.skipBand hc hband)

end

theorem spaceByTraffic_pos (totalTp : Nat) {left : Nat} (h : 0 < left) : 0 < (spaceByTraffic totalTp left).1 := by
  unfold spaceByTraffic
  repeat' split
  · exact h
  all_goals exact Nat.succ_pos _

theorem scanTrySplit_pos (ifaces : List Iface) {left : Nat} (h : 0 < left) : 0 < (scanTrySplit ifaces left).1 := by
  have hpos := spaceByTraffic_pos (max (traffic ifaces).1 (traffic ifaces).2.1).toNat h
  unfold scanTrySplit
  dsimp only
  by_cases hleft : left ≤ (spaceByTraffic (max (traffic ifaces).1 (traffic ifaces).2.1).toNat left).1
  · rw [if_pos hleft]
    split
    · exact Nat.one_pos
    · exact h
  · rw [if_neg hleft]
    split
    · exact Nat.one_pos
    · exact hpos

/-- A batch is fine: it is not empty, of the band of its policy, within the space; the operating channel is alone in its
batch, and this one only is marked. -/
structure BatchOk (ps : List Policy) (req : List Chan) (s : Local) (chans : List Nat) : Prop where
  nonempty : chans ≠ []
  policy : ∃ p, ps[s.current]? = some p ∧ s.policy = some p ∧ ∀ k ∈ chans, ∃ c, req[k]? = some c ∧ c.band = p.band
  space : chans.length ≤ s.scanChannelSpace
  size : chans.length ≤ req.length
  marked : s.onlyProb = true ↔ ∃ k ∈ chans, ∃ c, req[k]? = some c ∧ c.hwValue = s.operChannel
  alone : s.onlyProb = true → chans.length = 1

/-- What is kept through a scan: `got j` are the positions in the batches of policy `j`. -/
structure Kept (ps : List Policy) (req : List Chan) (got : Nat → List Nat) (s : Local) : Prop where
  policies : s.scanPolicy = ps.drop s.unlinked ∧ s.unlinked ≤ ps.length
  counters : s.scanNChannels ≤ s.scanChannelIdx ∧ s.scanChannelIdx ≤ req.length
  sorted : ∀ j, (got j).Pairwise (· < ·)
  taken : ∀ j k, (j, k, true) ∈ s.offered ↔ k ∈ got j
  behind : ∀ k ∈ got s.unlinked, k < s.scanChannelIdx
  later : ∀ j, s.unlinked < j → got j = []
  covered : ∀ j p, j < s.unlinked → ps[j]? = some p →
    ∀ k c, req[k]? = some c → c.band = p.band → ∃ a, (j, k, a) ∈ s.offered
  coveredNow : ∀ p, ps[s.unlinked]? = some p →
    ∀ k c, k < s.scanChannelIdx → req[k]? = some c → c.band = p.band → ∃ a, (s.unlinked, k, a) ∈ s.offered
  bug : s.bug = false
  warned : s.warned = false

/-- A batch more for policy `j`. -/
def batchMore (got : Nat → List Nat) (j : Nat) (chans : List Nat) : Nat → List Nat :=
  fun n => if n = j then got n ++ chans else got n

def leftTurns (ps : List Policy) (req : List Chan) (s : Local) : Nat :=
  (ps.length - s.unlinked) * (req.length + 1) - s.scanChannelIdx

section

variable {ps : List Policy} {req : List Chan} {got : Nat → List Nat} {s : Local} {sees : Sees} {p : Policy}

/-- A turn over policy `p`: what the loop over the channels leaves. -/
def turnOf (req : List Chan) (sees : Sees) (p : Policy) (s : Local) : Try × Bool :=
  let s := s.enter req sees p
  tries ⟨p, s.operChannel, s.scanChannelSpace, sees.frames⟩ (req.drop s.scanChannelIdx) s.scanChannelIdx s.tryOf

def visitOf (req : List Chan) (sees : Sees) (p : Policy) (s : Local) : Visit :=
  ⟨p, scanOperChannel sees.oper, (scanTrySplit sees.ifaces (req.length - s.scanNChannels)).1, sees.frames⟩

theorem turnOf_spec (h : Kept ps req got s) :
    ((turnOf req sees p s).2 = false → Trying (visitOf req sees p s) req s.scanChannelIdx s.tryOf req.length (turnOf req sees p s).1) ∧
    ((turnOf req sees p s).2 = true → Left (visitOf req sees p s) req s.scanChannelIdx s.tryOf (turnOf req sees p s).1) := by
  obtain ⟨hcount, hidx⟩ := h.counters
  apply tries_spec (i := s.scanChannelIdx) (req.drop s.scanChannelIdx) rfl
  constructor
  · exact {
      le := ⟨Nat.le_refl _, hidx⟩
      sorted := List.Pairwise.nil
      from_start := nofun
      behind := nofun
      band := nofun
      count := rfl
      idx := ⟨hcount, Nat.le_refl _, Nat.le_refl _⟩
      grown := fun hne => absurd rfl hne
      taken := fun k => ⟨nofun, nofun⟩
      covered := fun k h0 h1 => absurd h1 (Nat.not_lt.mpr h0)
      space := Nat.zero_le _
      bug := rfl }
  · exact fun hlt => scanTrySplit_pos _ (by omega)
  · exact nofun
  · rfl

def turned (req : List Chan) (sees : Sees) (p : Policy) (s : Local) : Local :=
  (s.enter req sees p).tried (turnOf req sees p s).1

theorem mem_turned {j k : Nat} {a : Bool} :
    (j, k, a) ∈ (turned req sees p s).offered ↔
      (j, k, a) ∈ s.offered ∨ j = s.unlinked ∧ (k, a) ∈ (turnOf req sees p s).1.offered := by
  show (j, k, a) ∈ s.offered ++ (turnOf req sees p s).1.offered.map (fun o => (s.unlinked, o)) ↔ _
  rw [List.mem_append, List.mem_map]
  constructor
  · rintro (h | ⟨o, ho, heq⟩)
    · exact .inl h
    · obtain ⟨rfl, rfl⟩ := Prod.mk.inj heq
      exact .inr ⟨rfl, ho⟩
  · rintro (h | ⟨rfl, h⟩)
    · exact .inl h
    · exact .inr ⟨_, h, rfl⟩

theorem batchMore_self (got : Nat → List Nat) (j : Nat) (chans : List Nat) : batchMore got j chans j = got j ++ chans :=
  if_pos rfl

theorem batchMore_ne (got : Nat → List Nat) {j n : Nat} (chans : List Nat) (h : n ≠ j) : batchMore got j chans n = got n :=
  if_neg h

theorem batchMore_nil (got : Nat → List Nat) (j : Nat) : batchMore got j [] = got := by
  funext n
  unfold batchMore
  split
  · exact List.append_nil _
  · rfl

theorem Kept.current (h : Kept ps req got s) {rest : List Policy} (hp : s.scanPolicy = p :: rest) :
    ps[s.unlinked]? = some p ∧ rest = ps.drop (s.unlinked + 1) ∧ s.unlinked < ps.length := by
  obtain ⟨hdrop, hle⟩ := h.policies
  rw [hp] at hdrop
  have hlt : s.unlinked < ps.length := by
    have hl := congrArg List.length hdrop
    rw [List.length_drop, List.length_cons] at hl
    omega
  rw [List.drop_eq_getElem_cons hlt] at hdrop
  obtain ⟨hpEq, hrest⟩ := List.cons.inj hdrop
  exact ⟨by rw [List.getElem?_eq_getElem hlt, hpEq], hrest, hlt⟩

variable {i : Nat} {rest : List Policy}

theorem Kept.sorted_more (h : Kept ps req got s)
    (ht : Tried (visitOf req sees p s) req s.scanChannelIdx s.tryOf i (turnOf req sees p s).1) (j : Nat) :
    (batchMore got s.unlinked (turnOf req sees p s).1.chans j).Pairwise (· < ·) := by
  by_cases hj : j = s.unlinked
  · subst hj
    rw [batchMore_self, List.pairwise_append]
    refine ⟨h.sorted _, ht.sorted, fun a ha b hb => ?_⟩
    exact Nat.lt_of_lt_of_le (h.behind a ha) (ht.from_start b hb)
  · rw [batchMore_ne got _ hj]
    exact h.sorted j

theorem Kept.taken_more (h : Kept ps req got s)
    (ht : Tried (visitOf req sees p s) req s.scanChannelIdx s.tryOf i (turnOf req sees p s).1) (j k : Nat) :
    (j, k, true) ∈ (turned req sees p s).offered ↔ k ∈ batchMore got s.unlinked (turnOf req sees p s).1.chans j := by
  rw [mem_turned, h.taken, ht.taken]
  by_cases hj : j = s.unlinked
  · subst hj
    rw [batchMore_self, List.mem_append]
    simp
  · rw [batchMore_ne got _ hj]
    simp [hj]

theorem Kept.covered_more (h : Kept ps req got s) (hp : s.scanPolicy = p :: rest)
    (ht : Tried (visitOf req sees p s) req s.scanChannelIdx s.tryOf i (turnOf req sees p s).1) :
    ∀ k c, k < i → req[k]? = some c → c.band = p.band → ∃ a, (s.unlinked, k, a) ∈ (turned req sees p s).offered := by
  intro k c hk hc hb
  by_cases hlt : k < s.scanChannelIdx
  · obtain ⟨a, ha⟩ := h.coveredNow p (h.current hp).1 k c hlt hc hb
    exact ⟨a, mem_turned.mpr (.inl ha)⟩
  · obtain ⟨a, ha⟩ := ht.covered k (Nat.not_lt.mp hlt) hk c hc hb
    exact ⟨a, mem_turned.mpr (.inr ⟨rfl, ha⟩)⟩

theorem Kept.warned_turned (h : Kept ps req got s) : (turned req sees p s).warned = false := by
  obtain ⟨hcount, hidx⟩ := h.counters
  show (s.warned || decide (req.length < s.scanNChannels)) = false
  rw [h.warned]
  simp only [Bool.false_or, decide_eq_false_iff_not]
  omega

theorem Kept.batchOk (h : Kept ps req got s) (hp : s.scanPolicy = p :: rest) (hunmarked : s.onlyProb = false)
    (ht : Tried (visitOf req sees p s) req s.scanChannelIdx s.tryOf i (turnOf req sees p s).1)
    (hne : (turnOf req sees p s).1.chans ≠ [])
    (hmarked : (turnOf req sees p s).1.onlyProb = true ↔ s.onlyProb = true ∨
      ∃ k ∈ (turnOf req sees p s).1.chans, ∃ c, req[k]? = some c ∧ c.hwValue = scanOperChannel sees.oper)
    (halone : (∃ k ∈ (turnOf req sees p s).1.chans, ∃ c, req[k]? = some c ∧ c.hwValue = scanOperChannel sees.oper) →
      (turnOf req sees p s).1.chans.length = 1) :
    BatchOk ps req (turned req sees p s) (turnOf req sees p s).1.chans := by
  obtain ⟨h1, h2, h3⟩ := ht.idx
  have hcount : _ = s.scanNChannels + _ := ht.count
  have hi := ht.le.2
  rw [hunmarked] at hmarked
  refine ⟨hne, ⟨p, (h.current hp).1, rfl, ht.band⟩, ht.space, by omega, ?_, fun hm => ?_⟩
  · exact hmarked.trans ⟨fun h' => h'.resolve_left nofun, .inr⟩
  · exact halone ((hmarked.mp hm).resolve_left nofun)

theorem Kept.left (h : Kept ps req got s) (hp : s.scanPolicy = p :: rest) (hunmarked : s.onlyProb = false)
    (hleft : (turnOf req sees p s).2 = true) :
    Kept ps req (batchMore got s.unlinked (turnOf req sees p s).1.chans) (turned req sees p s) ∧
      BatchOk ps req (turned req sees p s) (turnOf req sees p s).1.chans ∧
      leftTurns ps req (turned req sees p s) < leftTurns ps req s := by
  have hl := (turnOf_spec h).2 hleft
  obtain ⟨i, ht⟩ := hl.tried
  obtain ⟨h1, h2, h3⟩ := ht.idx
  have hi := ht.le.2
  refine ⟨?_, h.batchOk hp hunmarked ht hl.nonempty hl.marked hl.alone, ?_⟩
  · exact {
      policies := h.policies
      counters := ⟨h1, by show (turnOf req sees p s).1.scanChannelIdx ≤ req.length; omega⟩
      sorted := h.sorted_more ht
      taken := h.taken_more ht
      behind := by
        intro k hk
        replace hk : k ∈ batchMore got s.unlinked (turnOf req sees p s).1.chans s.unlinked := hk
        show k < (turnOf req sees p s).1.scanChannelIdx
        rw [batchMore_self] at hk
        rcases List.mem_append.mp hk with hk | hk
        · exact Nat.lt_of_lt_of_le (h.behind k hk) h2
        · exact ht.behind k hk
      later := by
        intro j hj
        replace hj : s.unlinked < j := hj
        rw [batchMore_ne got _ (by omega)]
        exact h.later j hj
      covered := by
        intro j q hj hq k c hc hb
        obtain ⟨a, ha⟩ := h.covered j q hj hq k c hc hb
        exact ⟨a, mem_turned.mpr (.inl ha)⟩
      coveredNow := by
        intro q hq k c hk hc hb
        replace hk : k < (turnOf req sees p s).1.scanChannelIdx := hk
        obtain rfl : p = q := Option.some.inj ((h.current hp).1.symm.trans hq)
        exact h.covered_more hp ht k c (by omega) hc hb
      bug := ht.bug.trans h.bug
      warned := h.warned_turned }
  · have hgrown : s.scanChannelIdx < (turnOf req sees p s).1.scanChannelIdx := ht.grown hl.nonempty
    have hlt := (h.current hp).2.2
    have hmul : req.length + 1 ≤ (ps.length - s.unlinked) * (req.length + 1) := Nat.le_mul_of_pos_left _ (by omega)
    show (ps.length - s.unlinked) * (req.length + 1) - (turnOf req sees p s).1.scanChannelIdx <
      (ps.length - s.unlinked) * (req.length + 1) - s.scanChannelIdx
    omega

theorem Kept.through (h : Kept ps req got s) (hp : s.scanPolicy = p :: rest)
    (hend : (turnOf req sees p s).2 = false) :
    Kept ps req (batchMore got s.unlinked (turnOf req sees p s).1.chans) ((turned req sees p s).unlink rest) ∧
      leftTurns ps req ((turned req sees p s).unlink rest) < leftTurns ps req s := by
  have ht := (turnOf_spec h).1 hend
  obtain ⟨hcur, hrest, hlt⟩ := h.current hp
  obtain ⟨hcount, hidx⟩ := h.counters
  constructor
  · exact {
      policies := ⟨hrest, hlt⟩
      counters := ⟨Nat.le_refl _, Nat.zero_le _⟩
      sorted := h.sorted_more ht.toTried
      taken := h.taken_more ht.toTried
      behind := by
        intro k hk
        replace hk : k ∈ batchMore got s.unlinked (turnOf req sees p s).1.chans (s.unlinked + 1) := hk
        rw [batchMore_ne got _ (by omega), h.later _ (Nat.lt_succ_self _)] at hk
        exact absurd hk List.not_mem_nil
      later := by
        intro j hj
        replace hj : s.unlinked + 1 < j := hj
        rw [batchMore_ne got _ (by omega)]
        exact h.later j (by omega)
      covered := by
        intro j q hj hq k c hc hb
        replace hj : j < s.unlinked + 1 := hj
        by_cases hju : j = s.unlinked
        · subst hju
          obtain rfl : p = q := Option.some.inj (hcur.symm.trans hq)
          exact h.covered_more hp ht.toTried k c (List.getElem?_eq_some_iff.mp hc).1 hc hb
        · obtain ⟨a, ha⟩ := h.covered j q (by omega) hq k c hc hb
          exact ⟨a, mem_turned.mpr (.inl ha)⟩
      coveredNow := fun q hq k c hk => absurd hk (Nat.not_lt_zero k)
      bug := ht.bug.trans h.bug
      warned := by
        show (turned req sees p s).warned = false
        exact h.warned_turned }
  · show (ps.length - (s.unlinked + 1)) * (req.length + 1) - 0 < (ps.length - s.unlinked) * (req.length + 1) - s.scanChannelIdx
    have hsplit : ps.length - s.unlinked = ps.length - (s.unlinked + 1) + 1 := by omega
    rw [hsplit, Nat.add_mul, Nat.one_mul]
    omega

theorem Kept.through_batch (h : Kept ps req got s) (hp : s.scanPolicy = p :: rest) (hunmarked : s.onlyProb = false)
    (hend : (turnOf req sees p s).2 = false) (hne : (turnOf req sees p s).1.chans ≠ []) :
    BatchOk ps req (turned req sees p s) (turnOf req sees p s).1.chans := by
  have ht := (turnOf_spec h).1 hend
  refine h.batchOk hp hunmarked ht.toTried hne ?_ ?_
  · rw [ht.unmarked]
    exact ⟨.inl, fun h' => h'.resolve_right fun ⟨k, hk, c, hc, heq⟩ => ht.notOper k hk c hc heq⟩
  · exact fun ⟨k, hk, c, hc, heq⟩ => absurd heq (ht.notOper k hk c hc)

end

section

variable {ps : List Policy} {req : List Chan} {got : Nat → List Nat} {s : Local}

theorem Kept.fill (h : Kept ps req got s) (chans : List Nat) : Kept ps req got (s.fill chans) :=
  ⟨h.policies, h.counters, h.sorted, h.taken, h.behind, h.later, h.covered, h.coveredNow, h.bug, h.warned⟩

theorem prepTurns_cons (sees : Nat → Sees) (p : Policy) (rest : List Policy) (s : Local) :
    prepTurns req sees (p :: rest) s =
      if (turnOf req (sees s.unlinked) p s).2 = true then
        ((turned req (sees s.unlinked) p s).fill (turnOf req (sees s.unlinked) p s).1.chans, true)
      else if (turnOf req (sees s.unlinked) p s).1.chans ≠ [] then
        (((turned req (sees s.unlinked) p s).unlink rest).fill (turnOf req (sees s.unlinked) p s).1.chans, true)
      else prepTurns req sees rest ((turned req (sees s.unlinked) p s).unlink rest) :=
  rfl

theorem prepTurns_spec (sees : Nat → Sees) (policies : List Policy) (hp : s.scanPolicy = policies) (h : Kept ps req got s)
    (hunmarked : s.onlyProb = false) :
    ((prepTurns req sees policies s).2 = true → ∃ chans, (prepTurns req sees policies s).1.hwChannels = some chans ∧
      Kept ps req (batchMore got (prepTurns req sees policies s).1.current chans) (prepTurns req sees policies s).1 ∧
      BatchOk ps req (prepTurns req sees policies s).1 chans ∧
      leftTurns ps req (prepTurns req sees policies s).1 < leftTurns ps req s) ∧
    ((prepTurns req sees policies s).2 = false → Kept ps req got (prepTurns req sees policies s).1 ∧
      (prepTurns req sees policies s).1.unlinked = ps.length) := by
  induction policies generalizing s with
  | nil =>
    refine ⟨nofun, fun _ => ⟨h, ?_⟩⟩
    obtain ⟨hdrop, hle⟩ := h.policies
    rw [hp] at hdrop
    have hl := congrArg List.length hdrop
    rw [List.length_drop, List.length_nil] at hl
    show s.unlinked = ps.length
    omega
  | cons p rest ih =>
    rw [prepTurns_cons]
    by_cases hleft : (turnOf req (sees s.unlinked) p s).2 = true
    · rw [if_pos hleft]
      obtain ⟨hkept, hok, hlt⟩ := h.left hp hunmarked hleft
      refine ⟨fun _ => ⟨_, rfl, hkept.fill _, ?_, hlt⟩, nofun⟩
      exact ⟨hok.nonempty, hok.policy, hok.space, hok.size, hok.marked, hok.alone⟩
    · have hend : (turnOf req (sees s.unlinked) p s).2 = false := by simpa using hleft
      obtain ⟨hkept, hlt⟩ := h.through hp hend
      rw [if_neg hleft]
      by_cases hne : (turnOf req (sees s.unlinked) p s).1.chans ≠ []
      · rw [if_pos hne]
        have hok := h.through_batch hp hunmarked hend hne
        refine ⟨fun _ => ⟨_, rfl, hkept.fill _, ?_, hlt⟩, nofun⟩
        exact ⟨hok.nonempty, hok.policy, hok.space, hok.size, hok.marked, hok.alone⟩
      · rw [if_neg hne]
        have hnil := Classical.not_not.mp hne
        rw [hnil, batchMore_nil] at hkept
        have hun : ((turned req (sees s.unlinked) p s).unlink rest).onlyProb = false :=
          ((turnOf_spec h).1 hend).unmarked.trans hunmarked
        obtain ⟨htrue, hfalse⟩ := ih rfl hkept hun
        refine ⟨fun hr => ?_, hfalse⟩
        obtain ⟨chans, hhw, hk, hok, hlt'⟩ := htrue hr
        exact ⟨chans, hhw, hk, hok, Nat.lt_trans hlt' hlt⟩

/-- **A call of `prepHwScan`**: a batch of one policy, or the end of the last one. -/
theorem prepHwScan_spec (sees : Nat → Sees) (h : Kept ps req got s) (hunmarked : s.onlyProb = false) :
    ((prepHwScan req sees s).2 = true → ∃ chans, (prepHwScan req sees s).1.hwChannels = some chans ∧
      Kept ps req (batchMore got (prepHwScan req sees s).1.current chans) (prepHwScan req sees s).1 ∧
      BatchOk ps req (prepHwScan req sees s).1 chans ∧
      leftTurns ps req (prepHwScan req sees s).1 < leftTurns ps req s) ∧
    ((prepHwScan req sees s).2 = false → Kept ps req got (prepHwScan req sees s).1 ∧
      (prepHwScan req sees s).1.unlinked = ps.length) :=
  prepTurns_spec sees s.scanPolicy rfl h hunmarked

end

end ScanPolicy

end AtbmWifi
