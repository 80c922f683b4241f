import Mathlib.Data.List.Induction
import AtbmWifi.Scan.PolicyBatch

/-!
# The batches of a whole scan

* `scanPolicyPrepare_eq`: the policies a build leaves; the user policy is never among them.
* `scanAfter_ends`: a scan has finitely many calls, and without an abort and a refusal the last one finds nothing.
-/

namespace AtbmWifi

namespace ScanPolicy

open ChannelSelect (Build)

def buildPolicies : Build → List Policy
  | .only2g => [scanPolicyInit .only2G]
  | .pretend5g => [scanPolicyInit .only2G, scanPolicyInit .only5GIr]
  | .full5g => [scanPolicyInit .only2G, scanPolicyInit .only5GNoIr, scanPolicyInit .only5GIr]

theorem init_user (conf : ApConf) : ((scanPolicyInit .user).init conf).2 = .skip := by
  obtain ⟨channel, known⟩ := conf
  cases channel with
  | none => rfl
  | some n => cases known <;> rfl

theorem scanPolicyPrepare_eq (b : Build) (conf : ApConf) : scanPolicyPrepare b conf = buildPolicies b := by
  have huser (l : List Kind) : preparePolicies b conf (.user :: l) = preparePolicies b conf l := by
    have hskip := init_user conf
    rw [preparePolicies, if_neg (by cases b <;> decide)]
    split
    · rename_i h
      rw [h] at hskip
      cases hskip
    · rfl
    · rename_i h
      rw [h] at hskip
      cases hskip
  unfold scanPolicyPrepare
  rw [huser]
  cases b with
  | only2g => rfl
  | pretend5g => rfl
  | full5g => rfl

section

variable {P : (Chan → Bool) → Prop}

structure Keeps (P : (Chan → Bool) → Prop) (p : Policy) : Prop where
  rx : ∀ f c, P f → P (p.rx f c)
  offer : ∀ f c, P f → P (p.offer f c).2

/-- With marks of the property, a policy takes each channel of its band. -/
def Takes (P : (Chan → Bool) → Prop) (p : Policy) : Prop :=
  ∀ f c, P f → c.band = p.band → (p.offer f c).1 ≠ .skip

theorem Keeps.frames {p : Policy} (h : Keeps P p) (frames : List Chan) {f : Chan → Bool} (hf : P f) :
    P (scanPolicyRx (some p) f frames) := by
  unfold scanPolicyRx
  induction frames generalizing f with
  | nil => exact hf
  | cons c frames ih => exact ih (h.rx f c hf)

theorem tries_marks {v : Visit} (hk : Keeps P v.policy) (rest : List Chan) (i : Nat) (t : Try) (ht : P t.noIr) :
    P (tries v rest i t).1.noIr := by
  induction rest generalizing i t with
  | nil => exact ht
  | cons c rest ih =>
    have hoffer := hk.offer _ c (hk.frames (v.frames i) ht)
    unfold tries
    split
    · exact ih _ _ ht
    · split
      · exact ht
      · dsimp only
        split
        · exact ih _ _ hoffer
        · split
          · exact hoffer
          · split
            · exact hoffer
            · exact ih _ _ hoffer

theorem tries_takes {v : Visit} (hk : Keeps P v.policy) (htakes : Takes P v.policy) (rest : List Chan) (i : Nat) (t : Try)
    (ht : P t.noIr) (k : Nat) (hno : (k, false) ∉ t.offered) : (k, false) ∉ (tries v rest i t).1.offered := by
  induction rest generalizing i t with
  | nil => exact hno
  | cons c rest ih =>
    have hframes := hk.frames (v.frames i) ht
    have hoffer := hk.offer _ c hframes
    have hmore : (k, false) ∉ t.offered ++ [(i, true)] := by
      intro h
      rcases List.mem_append.mp h with h | h
      · exact hno h
      · simp at h
    unfold tries
    by_cases hband : c.band = v.policy.band
    · rw [if_neg (not_not_intro hband)]
      split
      · exact hno
      · dsimp only
        rw [if_neg (htakes _ c hframes hband)]
        split
        · exact hmore
        · split
          · exact hmore
          · exact ih _ _ hoffer hmore
    · rw [if_pos hband]
      exact ih _ _ ht hno

/-- The marks have the property, and each policy that is still used keeps it. -/
structure MarksKept (P : (Chan → Bool) → Prop) (s : Local) : Prop where
  marks : P s.noIr
  policy : ∀ p, s.policy = some p → Keeps P p
  policies : ∀ p ∈ s.scanPolicy, Keeps P p

theorem prepTurns_marks {req : List Chan} (sees : Nat → Sees) (policies : List Policy) (hk : ∀ p ∈ policies, Keeps P p)
    (s : Local) (hs : MarksKept P s) : MarksKept P (prepTurns req sees policies s).1 := by
  induction policies generalizing s with
  | nil => exact hs
  | cons p rest ih =>
    have hkp := hk p List.mem_cons_self
    have hkrest (q : Policy) (hq : q ∈ rest) := hk q (List.mem_cons_of_mem _ hq)
    have hturned : P (turned req (sees s.unlinked) p s).noIr := tries_marks hkp _ _ _ hs.marks
    have hcurrent : ∀ q, (turned req (sees s.unlinked) p s).policy = some q → Keeps P q :=
      fun q hq => Option.some.inj hq ▸ hkp
    rw [prepTurns_cons]
    split
    · exact ⟨hturned, hcurrent, hs.policies⟩
    · split
      · exact ⟨hturned, hcurrent, hkrest⟩
      · exact ih hkrest _ ⟨hturned, hcurrent, hkrest⟩

theorem prepTurns_takes {req : List Chan} {ps : List Policy} (sees : Nat → Sees) (policies : List Policy)
    (hk : ∀ p ∈ policies, Keeps P p) (s : Local) (hs : P s.noIr) (hdrop : policies = ps.drop s.unlinked) {j : Nat} {q : Policy}
    (hq : ps[j]? = some q) (htakes : Takes P q) (k : Nat) (hno : (j, k, false) ∉ s.offered) :
    (j, k, false) ∉ (prepTurns req sees policies s).1.offered := by
  induction policies generalizing s with
  | nil => exact hno
  | cons p rest ih =>
    have hkp := hk p List.mem_cons_self
    have hlt : s.unlinked < ps.length := by
      have hl := congrArg List.length hdrop
      rw [List.length_drop, List.length_cons] at hl
      omega
    rw [List.drop_eq_getElem_cons hlt] at hdrop
    obtain ⟨hpEq, hrest⟩ := List.cons.inj hdrop
    have hturned : P (turned req (sees s.unlinked) p s).noIr := tries_marks hkp _ _ _ hs
    have hnot : (j, k, false) ∉ (turned req (sees s.unlinked) p s).offered := by
      rw [mem_turned]
      rintro (h | ⟨rfl, h⟩)
      · exact hno h
      · rw [List.getElem?_eq_getElem hlt, ← hpEq] at hq
        obtain rfl := Option.some.inj hq
        exact tries_takes hkp htakes _ _ _ hs k List.not_mem_nil h
    rw [prepTurns_cons]
    split
    · exact hnot
    · split
      · exact hnot
      · exact ih (fun q hq => hk q (List.mem_cons_of_mem _ hq)) _ hturned hrest hnot

end

/-- Where no policy marks channels, none is marked. -/
def Unmarked (b : Build) (noIr : Chan → Bool) : Prop := b ≠ .full5g → ∀ c, noIr c = false

theorem prepareChannel_same (p : Policy) (f : Chan → Bool) (c : Chan) (r : Results) :
    (prepareChannel p f c (r, f)).2 = f := by
  unfold prepareChannel
  split
  · rfl
  · split <;> rfl

theorem keeps_unmarked {b : Build} {p : Policy} (hp : p ∈ buildPolicies b) : Keeps (Unmarked b) p := by
  have hkind : b ≠ .full5g → p.kind ≠ .only5GNoIr := by
    intro hb
    cases b with
    | only2g =>
      obtain rfl := List.mem_singleton.mp hp
      decide
    | pretend5g =>
      rcases List.mem_cons.mp hp with rfl | hp
      · decide
      · obtain rfl := List.mem_singleton.mp hp
        decide
    | full5g => exact absurd rfl hb
  obtain ⟨kind, band, unmap⟩ := p
  constructor
  · intro f c hf hb d
    have hfd := hf hb d
    cases kind with
    | user => exact hfd
    | only2G => exact hfd
    | only5GNoIr => exact absurd rfl (hkind hb)
    | only5GIr =>
      show (decide (d ≠ c) && f d) = false
      rw [hfd, Bool.and_false]
  · intro f c hf hb
    have hsame : (Policy.offer ⟨kind, band, unmap⟩ f c).2 = f := by
      cases kind with
      | user => exact prepareChannel_same _ _ _ _
      | only2G => exact prepareChannel_same _ _ _ _
      | only5GNoIr => exact absurd rfl (hkind hb)
      | only5GIr => exact prepareChannel_same _ _ _ _
    rw [hsame]
    exact hf hb

theorem exists_takes {b : Build} {band : Band} (h : hasBand b band = true) :
    ∃ (j : Nat) (q : Policy), (buildPolicies b)[j]? = some q ∧ q.band = band ∧ Takes (Unmarked b) q := by
  have h2g : Takes (Unmarked b) (scanPolicyInit .only2G) := by
    intro f c _ hc
    show (scanPolicy2G _ f c).1 ≠ .skip
    unfold scanPolicy2G prepareChannel
    rw [if_neg (not_not_intro hc)]
    exact nofun
  cases band with
  | ghz2 =>
    cases b with
    | only2g => exact ⟨0, _, rfl, rfl, h2g⟩
    | pretend5g => exact ⟨0, _, rfl, rfl, h2g⟩
    | full5g => exact ⟨0, _, rfl, rfl, h2g⟩
  | ghz5 =>
    cases b with
    | only2g => cases h
    | pretend5g =>
      refine ⟨1, _, rfl, rfl, fun f c hf hc => ?_⟩
      show (scanPolicy5GIr _ f c).1 ≠ .skip
      unfold scanPolicy5GIr prepareChannel
      rw [if_neg (not_not_intro hc), hf (by decide) c]
      exact nofun
    | full5g =>
      refine ⟨1, _, rfl, rfl, fun f c _ hc => ?_⟩
      show (scanPolicy5GNoIr _ f c).1 ≠ .skip
      unfold scanPolicy5GNoIr prepareChannel
      rw [if_neg (not_not_intro hc)]
      exact nofun

/-- The positions in the batches of policy `j`, one batch after the other. -/
def got (calls : List (Local × Bool)) (j : Nat) : List Nat :=
  (calls.filter fun r => r.2 && r.1.current == j).flatMap fun r => r.1.hwChannels.getD []

theorem got_batch (calls : List (Local × Bool)) {s : Local} {chans : List Nat} (h : s.hwChannels = some chans) :
    got (calls ++ [(s, true)]) = batchMore (got calls) s.current chans := by
  funext j
  unfold got batchMore
  rw [List.filter_append, List.flatMap_append]
  by_cases hj : j = s.current
  · subst hj
    simp [h]
  · have hne : (s.current == j) = false := beq_false_of_ne fun heq => hj heq.symm
    simp [hj, hne]

theorem got_none (calls : List (Local × Bool)) (s : Local) : got (calls ++ [(s, false)]) = got calls := by
  funext j
  unfold got
  rw [List.filter_append, List.flatMap_append]
  simp

structure ScanKept (ps : List Policy) (req : List Chan) (r : Scan) : Prop where
  kept : Kept ps req (got r.calls) r.scan
  batches : ∀ c ∈ r.calls, c.2 = true → ∃ chans, c.1.hwChannels = some chans ∧ BatchOk ps req c.1 chans
  before : ∀ c ∈ r.calls.dropLast, c.2 = true
  goesOn : r.running = true → ∀ c ∈ r.calls, c.2 = true
  ended : (∃ c ∈ r.calls, c.2 = false) → r.scan.unlinked = ps.length
  handed : r.handed = (r.calls.filter Prod.snd).map fun c => (c.1.hwChannels, c.1.onlyProb)
  turns : r.running = true → leftTurns ps req r.scan + r.calls.length ≤ ps.length * (req.length + 1)

section

variable {ps : List Policy} {req : List Chan}

theorem kept_started (ps : List Policy) (req : List Chan) (noIr : Chan → Bool) :
    Kept ps req (fun _ => []) (started ps req noIr) where
  policies := ⟨rfl, Nat.zero_le _⟩
  counters := ⟨Nat.le_refl _, Nat.zero_le _⟩
  sorted := fun _ => List.Pairwise.nil
  taken := fun j k => ⟨nofun, nofun⟩
  behind := nofun
  later := fun _ _ => rfl
  covered := fun j p hj => absurd hj (Nat.not_lt_zero j)
  coveredNow := fun p _ k c hk => absurd hk (Nat.not_lt_zero k)
  bug := rfl
  warned := rfl

/-- **The first call finds a batch.** -/
theorem prepHwScan_first {b : Build} (hne : req ≠ []) (hreq : ∀ c ∈ req, hasBand b c.band = true) {noIr : Chan → Bool}
    (hmarks : Unmarked b noIr) (sees : Nat → Sees) :
    (prepHwScan req sees (started (buildPolicies b) req noIr)).2 = true := by
  apply Classical.byContradiction
  intro hfalse
  obtain ⟨hkept, hend⟩ := (prepHwScan_spec sees (kept_started (buildPolicies b) req noIr) rfl).2 (by simpa using hfalse)
  obtain ⟨c, rest, rfl⟩ := List.exists_cons_of_ne_nil hne
  obtain ⟨j, q, hq, hband, htakes⟩ := exists_takes (hreq c List.mem_cons_self)
  have hj : j < (buildPolicies b).length := (List.getElem?_eq_some_iff.mp hq).1
  obtain ⟨a, ha⟩ := hkept.covered j q (by omega) hq 0 c rfl hband.symm
  cases a with
  | true => exact absurd ((hkept.taken j 0).mp ha) List.not_mem_nil
  | false =>
    exact prepTurns_takes sees (buildPolicies b) (fun p hp => keeps_unmarked hp) (started (buildPolicies b) (c :: rest) noIr) hmarks rfl hq
      htakes 0 List.not_mem_nil ha

theorem scanKept_start {b : Build} (conf : ApConf) (hne : req ≠ []) (hreq : ∀ c ∈ req, hasBand b c.band = true)
    {noIr : Chan → Bool} (hmarks : Unmarked b noIr) (e : Event) :
    ScanKept (buildPolicies b) req (startScan b conf req noIr e) ∧ (startScan b conf req noIr e).calls.length = 1 := by
  have hfirst := prepHwScan_first hne hreq hmarks e.sees
  have hsome : buildPolicies b ≠ [] := by cases b <;> exact nofun
  unfold startScan
  rw [scanPolicyPrepare_eq, if_neg hsome]
  obtain ⟨chans, hhw, hkept, hok, hlt⟩ := (prepHwScan_spec e.sees (kept_started (buildPolicies b) req noIr) rfl).1 hfirst
  generalize prepHwScan req e.sees (started (buildPolicies b) req noIr) = r at *
  obtain ⟨s, ok⟩ := r
  obtain rfl : ok = true := hfirst
  refine ⟨?_, rfl⟩
  constructor
  · show Kept _ _ (got ([] ++ [(s, true)])) s
    rw [got_batch [] hhw]
    exact hkept
  · intro c hc _
    obtain rfl := List.mem_singleton.mp hc
    exact ⟨chans, hhw, hok⟩
  · exact nofun
  · intro _ c hc
    obtain rfl := List.mem_singleton.mp hc
    rfl
  · rintro ⟨c, hc, hfalse⟩
    obtain rfl := List.mem_singleton.mp hc
    cases hfalse
  · rfl
  · intro _
    have hstart : leftTurns (buildPolicies b) req (started (buildPolicies b) req noIr) =
        (buildPolicies b).length * (req.length + 1) := rfl
    show leftTurns (buildPolicies b) req s + 1 ≤ (buildPolicies b).length * (req.length + 1)
    rw [← hstart]
    exact hlt

theorem ScanKept.completed {r : Scan} (h : ScanKept ps req r) (e : Event) : ScanKept ps req (scanCompleted req r e) := by
  unfold scanCompleted
  by_cases hrun : r.running = false
  · rw [if_pos hrun]
    exact h
  · have hopen := h.goesOn (by simpa using hrun)
    have hturns := h.turns (by simpa using hrun)
    have hkept : Kept ps req (got r.calls)
        { r.scan with noIr := scanPolicyRx r.scan.policy r.scan.noIr e.before, onlyProb := false } := by
      have hk := h.kept
      exact ⟨hk.policies, hk.counters, hk.sorted, hk.taken, hk.behind, hk.later, hk.covered, hk.coveredNow, hk.bug, hk.warned⟩
    rw [if_neg hrun]
    dsimp only
    by_cases haborted : e.aborted = true
    · rw [if_pos haborted]
      exact ⟨hkept, h.batches, h.before, nofun, h.ended, h.handed, nofun⟩
    · rw [if_neg haborted]
      have hspec := prepHwScan_spec e.sees hkept rfl
      generalize prepHwScan req e.sees
        { r.scan with noIr := scanPolicyRx r.scan.policy r.scan.noIr e.before, onlyProb := false } = q at *
      obtain ⟨s, ok⟩ := q
      cases ok with
      | true =>
        obtain ⟨chans, hhw, hk, hok, hlt⟩ := hspec.1 rfl
        rw [if_pos rfl]
        constructor
        · show Kept _ _ (got (r.calls ++ [(s, true)])) s
          rw [got_batch _ hhw]
          exact hk
        · intro c hc htrue
          rcases List.mem_append.mp hc with hc | hc
          · exact h.batches c hc htrue
          · obtain rfl := List.mem_singleton.mp hc
            exact ⟨chans, hhw, hok⟩
        · show ∀ c ∈ (r.calls ++ [(s, true)]).dropLast, c.2 = true
          rw [List.dropLast_concat]
          exact hopen
        · intro _ c hc
          rcases List.mem_append.mp hc with hc | hc
          · exact hopen c hc
          · obtain rfl := List.mem_singleton.mp hc
            rfl
        · rintro ⟨c, hc, hfalse⟩
          rcases List.mem_append.mp hc with hc | hc
          · rw [hopen c hc] at hfalse
            cases hfalse
          · obtain rfl := List.mem_singleton.mp hc
            cases hfalse
        · show r.handed ++ _ = ((r.calls ++ [(s, true)]).filter Prod.snd).map _
          rw [List.filter_append, List.map_append, h.handed]
          rfl
        · intro _
          show leftTurns ps req s + (r.calls ++ [(s, true)]).length ≤ _
          rw [List.length_append, List.length_singleton]
          replace hlt : leftTurns ps req s < leftTurns ps req r.scan := hlt
          omega
      | false =>
        obtain ⟨hk, hend⟩ := hspec.2 rfl
        rw [if_neg (show ¬ (s, false).2 = true from nofun)]
        constructor
        · show Kept _ _ (got (r.calls ++ [(s, false)])) s
          rw [got_none]
          exact hk
        · intro c hc htrue
          rcases List.mem_append.mp hc with hc | hc
          · exact h.batches c hc htrue
          · obtain rfl := List.mem_singleton.mp hc
            cases htrue
        · show ∀ c ∈ (r.calls ++ [(s, false)]).dropLast, c.2 = true
          rw [List.dropLast_concat]
          exact hopen
        · exact nofun
        · exact fun _ => hend
        · show r.handed = ((r.calls ++ [(s, false)]).filter Prod.snd).map _
          rw [List.filter_append, List.map_append, h.handed]
          simp
        · exact nofun

end

section

variable {b : Build} {noIr : Chan → Bool}

theorem startScan_marks (conf : ApConf) (req : List Chan) (hmarks : Unmarked b noIr) (e : Event) :
    MarksKept (Unmarked b) (startScan b conf req noIr e).scan := by
  have hstarted : MarksKept (Unmarked b) (started (buildPolicies b) req noIr) :=
    ⟨hmarks, nofun, fun p hp => keeps_unmarked hp⟩
  unfold startScan
  rw [scanPolicyPrepare_eq]
  dsimp only
  split
  · exact hstarted
  · exact prepTurns_marks e.sees _ hstarted.policies _ hstarted

theorem scanCompleted_marks (req : List Chan) {r : Scan} (h : MarksKept (Unmarked b) r.scan) (e : Event) :
    MarksKept (Unmarked b) (scanCompleted req r e).scan := by
  have hframes : Unmarked b (scanPolicyRx r.scan.policy r.scan.noIr e.before) := by
    cases hpolicy : r.scan.policy with
    | none => exact h.marks
    | some p => exact (h.policy p hpolicy).frames e.before h.marks
  have hs : MarksKept (Unmarked b)
      { r.scan with noIr := scanPolicyRx r.scan.policy r.scan.noIr e.before, onlyProb := false } :=
    ⟨hframes, h.policy, h.policies⟩
  have hprep : MarksKept (Unmarked b) (prepHwScan req e.sees
      { r.scan with noIr := scanPolicyRx r.scan.policy r.scan.noIr e.before, onlyProb := false }).1 :=
    prepTurns_marks e.sees r.scan.scanPolicy h.policies _ hs
  unfold scanCompleted
  split
  · exact h
  · dsimp only
    split
    · exact hs
    · split
      · exact hprep
      · exact hprep

/-- The marks that scans and received frames leave; the tables of the channels have none. -/
inductive Marks (b : Build) : (Chan → Bool) → Prop
  | tables : Marks b fun _ => false
  | received {noIr : Chan → Bool} {p : Policy} (frames : List Chan) : Marks b noIr → p ∈ buildPolicies b →
      Marks b (scanPolicyRx (some p) noIr frames)
  | scanned {noIr : Chan → Bool} (conf : ApConf) (req : List Chan) (e : Event) (es : List Event) : Marks b noIr →
      Marks b (scanAfter b conf req noIr e es).scan.noIr

theorem Marks.unmarked (h : Marks b noIr) : Unmarked b noIr := by
  induction h with
  | tables => exact fun _ _ => rfl
  | received frames _ hp ih => exact (keeps_unmarked hp).frames frames ih
  | scanned conf req e es _ ih =>
    have hrun (r : Scan) (hr : MarksKept (Unmarked b) r.scan) : MarksKept (Unmarked b) (es.foldl (scanCompleted req) r).scan := by
      induction es generalizing r with
      | nil => exact hr
      | cons e' es ih' => exact ih' _ (scanCompleted_marks req hr e')
    exact (hrun _ (startScan_marks conf req ih e)).marks

variable {req : List Chan}

theorem scanAfter_kept (conf : ApConf) (hne : req ≠ []) (hreq : ∀ c ∈ req, hasBand b c.band = true)
    (hmarks : Unmarked b noIr) (e : Event) (es : List Event) :
    ScanKept (buildPolicies b) req (scanAfter b conf req noIr e es) := by
  have hrun (r : Scan) (hr : ScanKept (buildPolicies b) req r) :
      ScanKept (buildPolicies b) req (es.foldl (scanCompleted req) r) := by
    induction es generalizing r with
    | nil => exact hr
    | cons e' es ih => exact ih _ (hr.completed e')
  exact hrun _ (scanKept_start conf hne hreq hmarks e).1

theorem scanCompleted_calls {r : Scan} (e : Event) (h : (scanCompleted req r e).running = true) :
    r.running = true ∧ (scanCompleted req r e).calls.length = r.calls.length + 1 := by
  unfold scanCompleted at h ⊢
  by_cases hrun : r.running = false
  · rw [if_pos hrun, hrun] at h
    cases h
  · refine ⟨by simpa using hrun, ?_⟩
    rw [if_neg hrun] at h ⊢
    dsimp only at h ⊢
    split at h
    · cases h
    · rename_i haborted
      rw [if_neg haborted]
      split at h
      · rename_i hp
        rw [if_pos hp, List.length_append, List.length_singleton]
      · cases h

theorem scanAfter_snoc (b : Build) (conf : ApConf) (req : List Chan) (noIr : Chan → Bool) (e e' : Event) (es : List Event) :
    scanAfter b conf req noIr e (es ++ [e']) = scanCompleted req (scanAfter b conf req noIr e es) e' := by
  unfold scanAfter
  rw [List.foldl_append]
  rfl

theorem scanAfter_calls (conf : ApConf) (hne : req ≠ []) (hreq : ∀ c ∈ req, hasBand b c.band = true)
    (hmarks : Unmarked b noIr) (e : Event) (es : List Event) (h : (scanAfter b conf req noIr e es).running = true) :
    (scanAfter b conf req noIr e es).calls.length = es.length + 1 := by
  induction es using List.reverseRecOn with
  | nil => exact (scanKept_start conf hne hreq hmarks e).2
  | append_singleton es e' ih =>
    rw [scanAfter_snoc] at h ⊢
    obtain ⟨hrun, hlen⟩ := scanCompleted_calls e' h
    rw [hlen, ih hrun, List.length_append, List.length_singleton]

theorem scanAfter_ended (conf : ApConf) (e : Event) (es : List Event)
    (hfine : ∀ d ∈ e :: es, d.aborted = false ∧ d.accepted = true)
    (h : (scanAfter b conf req noIr e es).running = false) : ∃ c ∈ (scanAfter b conf req noIr e es).calls, c.2 = false := by
  induction es using List.reverseRecOn with
  | nil =>
    have hsome : buildPolicies b ≠ [] := by cases b <;> exact nofun
    have hacc := (hfine e List.mem_cons_self).2
    unfold scanAfter startScan at h
    rw [scanPolicyPrepare_eq, if_neg hsome] at h
    rw [show e.accepted = false from h] at hacc
    cases hacc
  | append_singleton es e' ih =>
    have hfine' := hfine e' (List.mem_cons_of_mem _ (List.mem_append_right _ List.mem_cons_self))
    have hrest : ∀ d ∈ e :: es, d.aborted = false ∧ d.accepted = true := by
      intro d hd
      apply hfine
      rcases List.mem_cons.mp hd with rfl | hd
      · exact List.mem_cons_self
      · exact List.mem_cons_of_mem _ (List.mem_append_left _ hd)
    rw [scanAfter_snoc] at h ⊢
    by_cases hrun : (scanAfter b conf req noIr e es).running = false
    · obtain ⟨c, hc, hfalse⟩ := ih hrest hrun
      unfold scanCompleted
      rw [if_pos hrun]
      exact ⟨c, hc, hfalse⟩
    · unfold scanCompleted at h ⊢
      rw [if_neg hrun] at h ⊢
      dsimp only at h ⊢
      rw [if_neg (by simp [hfine'.1])] at h ⊢
      split at h
      · rw [show e'.accepted = false from h] at hfine'
        cases hfine'.2
      · rename_i hp
        rw [if_neg hp]
        exact ⟨_, List.mem_append_right _ List.mem_cons_self, by simpa using hp⟩

end

/-- The calls of a scan cover the request: each batch is fine, for each policy the batches are in order and without
repetition the positions that it took, after the last call each channel of its band was offered to it, and the driver was
given these batches. -/
structure Covers (ps : List Policy) (req : List Chan) (r : Scan) : Prop where
  batches : ∀ c ∈ r.calls, c.2 = true → ∃ chans, c.1.hwChannels = some chans ∧ BatchOk ps req c.1 chans
  last : (∀ c ∈ r.calls.dropLast, c.2 = true) ∧ ∀ c ∈ r.calls, c.2 = false → r.running = false
  ordered : ∀ j, (got r.calls j).Pairwise (· < ·)
  taken : ∀ j k, k ∈ got r.calls j ↔ (j, k, true) ∈ r.scan.offered
  covered : (∃ c ∈ r.calls, c.2 = false) → ∀ j p, ps[j]? = some p → ∀ k c, req[k]? = some c → c.band = p.band →
    ∃ a, (j, k, a) ∈ r.scan.offered
  noBug : r.scan.bug = false ∧ r.scan.warned = false
  handed : r.handed = (r.calls.filter Prod.snd).map fun c => (c.1.hwChannels, c.1.onlyProb)

theorem ScanKept.covers {ps : List Policy} {req : List Chan} {r : Scan} (h : ScanKept ps req r) : Covers ps req r where
  batches := h.batches
  last := by
    refine ⟨h.before, fun c hc hfalse => ?_⟩
    cases hrun : r.running with
    | false => rfl
    | true =>
      rw [h.goesOn hrun c hc] at hfalse
      cases hfalse
  ordered := h.kept.sorted
  taken := fun j k => (h.kept.taken j k).symm
  covered := by
    intro hend j p hp k c hc hb
    have hj := (List.getElem?_eq_some_iff.mp hp).1
    have hall := h.ended hend
    exact h.kept.covered j p (by omega) hp k c hc hb
  noBug := ⟨h.kept.bug, h.kept.warned⟩
  handed := h.handed

def quiet : Event where
  aborted := false
  before := []
  sees := fun _ => ⟨[], ⟨none, false, false, true, false, false⟩, fun _ => []⟩
  accepted := true

def bothBands : List Chan := [⟨.ghz5, 5180, 36⟩, ⟨.ghz2, 2412, 1⟩]

end ScanPolicy

end AtbmWifi
