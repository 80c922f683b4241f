import AtbmWifi.Mac80211.Defrag

/-!
# Runs of the fragment cache
-/

namespace AtbmWifi

open Transition

/-- The tests of `ieee80211_reassemble_find` on the headers. -/
def FragSkb.alike (skb first : FragSkb) : Bool :=
  skb.seq == first.seq && skb.seqnoIdx == first.seqnoIdx && skb.ftype == first.ftype && skb.addr1 == first.addr1 &&
    skb.addr2 == first.addr2

/-- Fragment number `n` of the frame that `first` begins. -/
structure FragSkb.Follows (skb : FragSkb) (swEnc : Bool) (first : FragSkb) (n : Nat) : Prop where
  frag : skb.frag = n
  alike : skb.alike first
  ccmp : (swEnc && first.ccmp) = true → skb.ccmp ∧ skb.key = first.key ∧ skb.rxPn = first.rxPn + BitVec.ofNat 48 n
  plain : (swEnc && first.ccmp) = false → skb.key = none

/-- The fragments of one frame, from its first on. -/
structure Parts (swEnc : Bool) (first : FragSkb) (rest : List FragSkb) : Prop where
  frag : first.frag = 0
  more : first.moreFrags
  follows : ∀ i (skb : FragSkb), rest[i]? = some skb → skb.Follows swEnc first (i + 1)

def Msdu.of (first : FragSkb) (rest : List FragSkb) : Msdu :=
  ⟨{ first with body := first.body ++ rest.flatMap FragSkb.body }, first :: rest⟩

/-- A frame as it came, or put together of all its fragments. -/
inductive Msdu.Made (swEnc : Bool) : Msdu → Prop
  | whole (skb : FragSkb) : skb.whole → Made swEnc ⟨skb, [skb]⟩
  | parts (first last : FragSkb) (rest : List FragSkb) : Parts swEnc first (rest ++ [last]) →
    (∀ skb ∈ rest, skb.moreFrags) → last.moreFrags = false → Made swEnc (.of first (rest ++ [last]))

/-- The fields of an entry are those of its fragments. -/
structure FragEntry.Good (e : FragEntry) (swEnc : Bool) (first : FragSkb) (rest : List FragSkb) : Prop where
  parts : Parts swEnc first rest
  more : ∀ skb ∈ rest, skb.moreFrags
  seq : e.seq = first.seq
  queue : e.rxQueue = first.seqnoIdx
  last : e.lastFrag = rest.length
  ccmp : e.ccmp = (swEnc && first.ccmp)
  pn : e.ccmp = true → e.lastPn = first.rxPn + BitVec.ofNat 48 rest.length
  key : e.firstKey = if e.ccmp then first.key.map Prod.fst else none

variable {s t : Defrag} {i j n : Nat} {skb first x : FragSkb} {rest l : List FragSkb} {e : FragEntry} {c : DefragCfg}
  {room : Bool}

theorem FragSkb.key_of_ccmp (hs : skb.ccmp) (hf : first.ccmp) (h : skb.key.map Prod.fst = first.key.map Prod.fst) :
    skb.key = first.key := by
  have known {f : FragSkb} (hf : f.ccmp) : ∃ a, f.key = some (a, true) := by
    have h := (Bool.and_eq_true_iff.mp hf).1
    match hk : f.key with
    | some (a, true) => exact ⟨a, rfl⟩
    | some (_, false) | none => rw [hk] at h; cases h
  obtain ⟨a, ha⟩ := known hs
  obtain ⟨b, hb⟩ := known hf
  rw [ha, hb] at h ⊢
  rw [show a = b from Option.some.inj h]

theorem Parts.snoc {swEnc : Bool} (h : Parts swEnc first rest) (hf : skb.Follows swEnc first (rest.length + 1)) :
    Parts swEnc first (rest ++ [skb]) := by
  refine ⟨h.frag, h.more, fun i g hi => ?_⟩
  rcases Nat.lt_trichotomy i rest.length with hlt | rfl | hlt
  · rw [List.getElem?_append_left hlt] at hi
    exact h.follows i g hi
  · rw [List.getElem?_concat_length] at hi
    exact Option.some.inj hi ▸ hf
  · rw [List.getElem?_eq_none (by rw [List.length_append, List.length_singleton]; omega)] at hi
    cases hi

theorem FragEntry.Good.snoc {swEnc : Bool} (h : e.Good swEnc first rest) (hf : skb.Follows swEnc first (rest.length + 1))
    (hm : skb.moreFrags) : (e.put skb).Good swEnc first (rest ++ [skb]) where
  parts := h.parts.snoc hf
  more := by
    intro g hg
    rcases List.mem_append.mp hg with hg | hg
    · exact h.more g hg
    · rwa [List.mem_singleton.mp hg]
  seq := h.seq
  queue := h.queue
  last := by
    rw [List.length_append]
    exact hf.frag
  ccmp := h.ccmp
  pn := by
    intro hc
    have hc : e.ccmp = true := hc
    rw [List.length_append]
    show (if e.ccmp then skb.rxPn else e.lastPn) = _
    rw [if_pos hc]
    exact (hf.ccmp (h.ccmp ▸ hc)).2.2
  key := h.key

/-- An entry that fits holds the frame's first fragment. -/
theorem FragEntry.Good.fits_iff {swEnc : Bool} (h : e.Good swEnc first rest) (hl : e.skbList = first :: rest) :
    e.fits skb = true ↔ skb.alike first = true ∧ skb.frag = rest.length + 1 := by
  unfold FragEntry.fits FragSkb.alike
  rw [hl, h.seq, h.queue, h.last]
  simp only [Bool.and_eq_true, beq_iff_eq]
  constructor
  · rintro ⟨⟨⟨⟨⟨h1, h2⟩, h3⟩, h4⟩, h5⟩, h6⟩
    exact ⟨⟨⟨⟨⟨h1.symm, h2.symm⟩, h4⟩, h5⟩, h6⟩, h3.symm⟩
  · rintro ⟨⟨⟨⟨⟨h1, h2⟩, h4⟩, h5⟩, h6⟩, h3⟩
    exact ⟨⟨⟨⟨⟨h1.symm, h2.symm⟩, h3.symm⟩, h4⟩, h5⟩, h6⟩

theorem FragEntry.ne_nil_of_fits (h : e.fits skb) : ∃ f r, e.skbList = f :: r := by
  unfold FragEntry.fits at h
  split at h
  · cases h
  · next f r hl => exact ⟨f, r, hl⟩

namespace Defrag

theorem setEntry_self : (s.setEntry i e).fragments i = e := Function.update_self ..

theorem purge_self : (s.purge i).fragments i = { s.fragments i with skbList := [] } := Function.update_self ..

structure Inv (swEnc : Bool) (s : Defrag) : Prop where
  next : s.fragmentNext < fragmentMax
  good : ∀ i first rest, (s.fragments i).skbList = first :: rest → (s.fragments i).Good swEnc first rest
  made : ∀ m ∈ s.frames, m.Made swEnc

theorem Inv.replace {swEnc : Bool} (h : Inv swEnc s) (i : Nat) (hn : t.fragmentNext < fragmentMax)
    (hk : ∀ k, k ≠ i → t.fragments k = s.fragments k)
    (hi : ∀ f r, (t.fragments i).skbList = f :: r → (t.fragments i).Good swEnc f r)
    (hm : ∀ m ∈ t.frames, m ∈ s.frames ∨ m.Made swEnc) : Inv swEnc t := by
  refine ⟨hn, fun k f r hl => ?_, fun m hin => (hm m hin).elim (h.made m) id⟩
  by_cases hki : k = i
  · rw [hki] at hl ⊢
    exact hi f r hl
  · rw [hk k hki] at hl ⊢
    exact h.good k f r hl

theorem Inv.purge {swEnc : Bool} (h : Inv swEnc s) (i : Nat) : Inv swEnc (s.purge i) := by
  refine h.replace i h.next (fun k hk => Function.update_of_ne hk ..) (fun f r hl => ?_) fun m hm => .inl hm
  rw [purge_self] at hl
  cases hl

theorem Inv.free {swEnc : Bool} (h : Inv swEnc s) (l : List FragSkb) : Inv swEnc (s.free l) := ⟨h.next, h.good, h.made⟩

theorem Inv.append {swEnc : Bool} (h : Inv swEnc s) (hl : (s.fragments i).skbList = first :: rest)
    (hf : skb.Follows swEnc first (rest.length + 1)) : Inv swEnc (s.append room i skb) := by
  have hg := h.good i _ _ hl
  unfold Defrag.append
  dsimp only
  split
  · next hm =>
    refine h.replace i h.next (fun k hk => Function.update_of_ne hk ..) (fun f r hr => ?_) fun m hin => .inl hin
    rw [setEntry_self] at hr ⊢
    have hr : (s.fragments i).skbList ++ [skb] = f :: r := hr
    rw [hl] at hr
    obtain ⟨rfl, rfl⟩ := List.cons.inj hr
    exact hg.snoc hf hm
  · next hm =>
    split
    · refine h.replace i h.next (fun k hk => ?_) (fun f r hr => ?_) fun m hin => .inl hin
      · exact (Function.update_of_ne hk ..).trans (Function.update_of_ne hk ..)
      · rw [purge_self] at hr
        cases hr
    · rw [hl]
      refine h.replace i h.next (fun k hk => ?_) (fun f r hr => ?_) fun m hin => ?_
      · exact (Function.update_of_ne hk ..).trans (Function.update_of_ne hk ..)
      · dsimp only at hr
        rw [setEntry_self] at hr
        cases hr
      · rcases List.mem_append.mp hin with hin | hin
        · exact .inl hin
        · rw [List.mem_singleton.mp hin]
          exact .inr (.parts first skb rest (hg.parts.snoc hf) hg.more (Bool.eq_false_iff.mpr hm))

theorem join_cases {swEnc : Bool} (room : Bool) (hg : (s.fragments i).Good swEnc first rest)
    (ha : skb.alike first) (hf : skb.frag = rest.length + 1) :
    s.join room i skb = s.free [skb] ∨ s.join room i skb = (s.purge i).free [skb] ∨
      skb.Follows swEnc first (rest.length + 1) ∧ s.join room i skb = s.append room i skb := by
  unfold join
  dsimp only
  split
  · next hc =>
    have hcc : (swEnc && first.ccmp) = true := hg.ccmp ▸ hc
    split
    · exact .inl rfl
    · next hs =>
      split
      · exact .inr (.inl rfl)
      · next hk =>
        split
        · exact .inl rfl
        · next hp =>
          refine .inr (.inr ⟨⟨hf, ha, fun _ => ?_, fun hn => absurd hcc (by rw [hn]; decide)⟩, rfl⟩)
          rw [hg.key, if_pos hc, ne_eq, not_not] at hk
          rw [hg.pn hc, ne_eq, not_not] at hp
          have hs : skb.ccmp = true := by simpa using hs
          refine ⟨hs, FragSkb.key_of_ccmp hs (Bool.and_eq_true_iff.mp hcc).2 hk.symm, ?_⟩
          rw [← hp, BitVec.add_assoc, BitVec.ofNat_add]
          rfl
  · next hc =>
    have hcc : (swEnc && first.ccmp) = false := by rw [← hg.ccmp]; exact Bool.eq_false_iff.mpr hc
    split
    · exact .inr (.inl rfl)
    · next hk =>
      split
      · exact .inr (.inl rfl)
      · refine .inr (.inr ⟨⟨hf, ha, fun hn => absurd hn (by rw [hcc]; decide), fun _ => ?_⟩, rfl⟩)
        rw [hg.key, if_neg hc, ne_eq, not_not] at hk
        exact Option.map_eq_none_iff.mp hk.symm

theorem add_self {jiffies : Nat} : (s.reassembleAdd c jiffies skb).fragments s.fragmentNext =
    if c.swEnc && skb.ccmp then
      ⟨[skb], jiffies, skb.seq, skb.seqnoIdx, skb.frag, true, skb.rxPn, skb.key.map Prod.fst⟩
    else ⟨[skb], jiffies, skb.seq, skb.seqnoIdx, skb.frag, false, (s.fragments s.fragmentNext).lastPn, none⟩ :=
  Function.update_self ..

theorem Inv.add (h : Inv c.swEnc s) (hf : skb.frag = 0) (hm : skb.moreFrags) {jiffies : Nat} :
    Inv c.swEnc (s.reassembleAdd c jiffies skb) := by
  have hnext := h.next
  refine h.replace s.fragmentNext ?_ (fun k hk => ?_) (fun f r hr => ?_) fun m hin => .inl hin
  · unfold reassembleAdd
    dsimp only
    split
    · decide
    · omega
  · exact (Function.update_of_ne hk ..).trans (Function.update_of_ne hk ..)
  · rw [add_self] at hr ⊢
    have hp : Parts c.swEnc skb [] := ⟨hf, hm, fun i g hi => (by cases hi)⟩
    split at hr
    · next hc =>
      cases hr
      rw [if_pos hc]
      exact ⟨hp, fun _ hg => absurd hg List.not_mem_nil, rfl, rfl, hf, hc.symm, fun _ => (BitVec.add_zero _).symm, rfl⟩
    · next hc =>
      cases hr
      rw [if_neg hc]
      exact ⟨hp, fun _ hg => absurd hg List.not_mem_nil, rfl, rfl, hf, (Bool.eq_false_iff.mpr hc).symm, nofun, rfl⟩

theorem find_fits {hz jiffies f idx : Nat} (hi : (s.reassembleFind hz jiffies skb f idx).2 = some i) :
    ((s.reassembleFind hz jiffies skb f idx).1.fragments i).fits skb := by
  induction f generalizing s idx with
  | zero => cases hi
  | succ f ih =>
    unfold reassembleFind at hi ⊢
    dsimp only at hi ⊢
    split at hi
    · next hn => rw [if_pos hn]; exact ih hi
    · next hn =>
      rw [if_neg hn]
      split at hi
      · next ho => rw [if_pos ho]; exact ih hi
      · next ho =>
        rw [if_neg ho]
        cases hi
        simpa using hn

theorem before_lt {idx : Nat} (h : idx < fragmentMax) : before idx < fragmentMax := by
  unfold before
  unfold fragmentMax at h ⊢
  split <;> omega

theorem find_keeps (skb : FragSkb) (hz jiffies f : Nat) {P : Defrag → Prop} {idx : Nat}
    (hP : ∀ s i, i < fragmentMax → (s.fragments i).fits skb → P s → P (s.purge i)) (h : P s)
    (hidx : idx < fragmentMax) : P (s.reassembleFind hz jiffies skb f idx).1 ∧
      ∀ i, (s.reassembleFind hz jiffies skb f idx).2 = some i → i < fragmentMax := by
  induction f generalizing s idx with
  | zero => exact ⟨h, fun _ hi => (by cases hi)⟩
  | succ f ih =>
    have hlt := before_lt hidx
    unfold reassembleFind
    dsimp only
    split
    · exact ih h hlt
    split
    · next hn _ => exact ih (hP _ _ hlt (by simpa using hn) h) hlt
    · exact ⟨h, fun i hi => Option.some.inj hi ▸ hlt⟩

theorem purgeAll_keeps {P : Defrag → Prop} {p : FragEntry → Bool} (hP : ∀ s i, i < fragmentMax → P s → P (s.purge i))
    (hn : n ≤ fragmentMax) (h : P s) : P (s.purgeAll p n) := by
  induction n generalizing s with
  | zero => exact h
  | succ n ih =>
    apply ih (by omega)
    split
    · exact hP _ _ hn h
    · exact h

variable {env : DefragEnv}

/-- What becomes of a frame: it is handed on, dropped or a first fragment, or an entry is looked for. -/
theorem Inv.rx_cases (h : Inv c.swEnc s) (skb : FragSkb) (env : DefragEnv) :
    skb.whole ∧ s.rxHDefragment c env skb = { s with frames := s.frames ++ [⟨skb, [skb]⟩] } ∨
      s.rxHDefragment c env skb = s.free [skb] ∨
      skb.whole = false ∧ skb.frag = 0 ∧ s.rxHDefragment c env skb = s.reassembleAdd c env.jiffies skb ∨
      ∃ t, t = (s.reassembleFind c.hz env.jiffies skb fragmentMax s.fragmentNext).1 ∧ Inv c.swEnc t ∧
        (s.rxHDefragment c env skb = t.free [skb] ∨ ∃ i f r, i < fragmentMax ∧ (t.fragments i).fits skb ∧
          (t.fragments i).skbList = f :: r ∧ (s.rxHDefragment c env skb = (t.purge i).free [skb] ∨
            skb.Follows c.swEnc f (r.length + 1) ∧ s.rxHDefragment c env skb = t.append env.room i skb)) := by
  have hk := find_keeps skb c.hz env.jiffies fragmentMax
    (fun s i _ _ hs => hs.purge i) h h.next
  unfold rxHDefragment
  split
  · next hw => exact .inl ⟨hw, rfl⟩
  split
  · exact .inr (.inl rfl)
  split
  · next hw _ hf => exact .inr (.inr (.inl ⟨Bool.eq_false_iff.mpr hw, hf, rfl⟩))
  refine .inr (.inr (.inr ⟨_, rfl, hk.1, ?_⟩))
  split
  · next hr => rw [hr]; exact .inl rfl
  · next t i hr =>
    have hfit := find_fits (i := i) (congrArg Prod.snd hr)
    rw [hr] at hk hfit ⊢
    obtain ⟨f, r, hl⟩ := FragEntry.ne_nil_of_fits hfit
    have hg := hk.1.good i f r hl
    obtain ⟨ha, hfr⟩ := (hg.fits_iff hl).mp hfit
    rcases join_cases env.room hg ha hfr with hj | hj | ⟨hF, hj⟩
    · exact .inl hj
    · exact .inr ⟨i, f, r, hk.2 i rfl, hfit, hl, .inl hj⟩
    · exact .inr ⟨i, f, r, hk.2 i rfl, hfit, hl, .inr ⟨hF, hj⟩⟩

theorem Inv.rx (h : Inv c.swEnc s) (env : DefragEnv) : Inv c.swEnc (s.rxHDefragment c env skb) := by
  obtain ⟨hw, hr⟩ | hr | ⟨hw, hf, hr⟩ | ⟨t, -, ht, hr | ⟨i, f, r, -, -, hl, hr | ⟨hF, hr⟩⟩⟩ := h.rx_cases
    skb env <;> rw [hr]
  · refine ⟨h.next, h.good, fun m hm => ?_⟩
    rcases List.mem_append.mp hm with hm | hm
    · exact h.made m hm
    · rw [List.mem_singleton.mp hm]
      exact .whole skb hw
  · exact h.free _
  · refine h.add hf ?_
    by_contra hm
    rw [FragSkb.whole, hf, Bool.eq_false_iff.mpr hm] at hw
    cases hw
  · exact ht.free _
  · exact (ht.purge i).free _
  · exact ht.append hl hF

theorem Inv.step (h : Inv c.swEnc s) (a : DefragAct) : Inv c.swEnc (a.next c s) := by
  cases a with
  | rx env skb => exact h.rx env
  | flush mac => exact purgeAll_keeps (fun s i _ hs => hs.purge i) (Nat.le_refl _) h
  | stop =>
    have := purgeAll_keeps (p := fun _ => true) (fun s i _ (hs : Inv c.swEnc s) => hs.purge i) (Nat.le_refl _) h
    exact ⟨Nat.succ_pos 3, this.good, this.made⟩

def num (x : FragSkb) (s : Defrag) : Nat := (s.frames.flatMap Msdu.parts).count x + s.freed.count x + s.cached.count x

theorem num_setEntry (hi : i < fragmentMax) :
    num x (s.setEntry i e) + (s.fragments i).skbList.count x = num x s + e.skbList.count x := by
  have hr : List.range fragmentMax = [0, 1, 2, 3] := rfl
  have hi : i = 0 ∨ i = 1 ∨ i = 2 ∨ i = 3 := by
    unfold fragmentMax at hi
    omega
  simp only [num, cached, hr, List.flatMap_cons, List.flatMap_nil, List.count_append, List.count_nil, setEntry]
  rcases hi with rfl | rfl | rfl | rfl <;> simp <;> omega

theorem num_free : num x (s.free l) = num x s + l.count x := by
  simp only [num, free, cached, List.count_append]
  omega

theorem num_purge (hi : i < fragmentMax) : num x (s.purge i) = num x s := by
  have h := num_setEntry (s := s.free (s.fragments i).skbList) (e := { s.fragments i with skbList := [] }) (x := x) hi
  rw [num_free] at h
  have h : num x (s.purge i) + (s.fragments i).skbList.count x = _ := h
  simp only [List.count_nil] at h
  omega

theorem num_put (hi : i < fragmentMax) :
    num x (s.setEntry i ((s.fragments i).put skb)) = num x s + [skb].count x := by
  have := num_setEntry (s := s) (e := (s.fragments i).put skb) (x := x) hi
  rw [show ((s.fragments i).put skb).skbList = (s.fragments i).skbList ++ [skb] from rfl, List.count_append] at this
  omega

theorem num_append (hi : i < fragmentMax) (hl : (s.fragments i).skbList = first :: rest) :
    num x (s.append room i skb) = num x s + [skb].count x := by
  unfold append
  dsimp only
  split
  · exact num_put hi
  split
  · rw [num_purge hi]
    exact num_put hi
  · rw [hl]
    have h := num_setEntry (s := s.setEntry i ((s.fragments i).put skb))
      (e := { (s.fragments i).put skb with skbList := [] }) (x := x) hi
    rw [num_put hi] at h
    rw [setEntry_self] at h ⊢
    rw [show ((s.fragments i).put skb).skbList = first :: (rest ++ [skb]) by
      show (s.fragments i).skbList ++ [skb] = _
      rw [hl]
      rfl] at h
    simp only [num, List.flatMap_append, List.count_append, List.count_nil, cached] at h ⊢
    simp only [List.flatMap_cons, List.flatMap_nil, List.append_nil]
    simp only [setEntry] at h ⊢
    omega

theorem num_rx (h : Inv c.swEnc s) : num x (s.rxHDefragment c env skb) = num x s + [skb].count x := by
  have hk := (find_keeps skb c.hz env.jiffies fragmentMax
    (P := fun t => num x t = num x s) (fun t i hi _ ht => (num_purge hi).trans ht) rfl h.next).1
  obtain ⟨-, hr⟩ | hr | ⟨-, -, hr⟩ | ⟨t, rfl, -, hr | ⟨i, f, r, hi, -, hl, hr | ⟨-, hr⟩⟩⟩ := h.rx_cases
    skb env <;> rw [hr]
  · simp only [num, cached, List.flatMap_append, List.count_append, List.flatMap_cons, List.flatMap_nil, List.append_nil]
    omega
  · exact num_free
  · have hs := num_setEntry (s := s.purge s.fragmentNext) (x := x) (e := if c.swEnc && skb.ccmp then
        ⟨[skb], env.jiffies, skb.seq, skb.seqnoIdx, skb.frag, true, skb.rxPn, skb.key.map Prod.fst⟩
      else ⟨[skb], env.jiffies, skb.seq, skb.seqnoIdx, skb.frag, false, (s.fragments s.fragmentNext).lastPn, none⟩) h.next
    rw [purge_self, num_purge h.next, List.count_nil] at hs
    rw [show num x (s.reassembleAdd c env.jiffies skb) = _ from hs]
    split <;> rfl
  · rw [num_free, hk]
  · rw [num_free, num_purge hi, hk]
  · rw [num_append hi hl, hk]

end Defrag

open Defrag

def DefragAct.frame : DefragAct → Option FragSkb
  | rx _ skb => some skb
  | flush _ | stop => none

theorem Defrag.Inv.reach (h : Reach (defragSys c) s) : Inv c.swEnc s := by
  refine h.invariant (I := Inv c.swEnc) ?_ ?_
  · rintro s rfl
    exact ⟨Nat.succ_pos 3, fun _ _ _ hl => (by cases hl), fun _ hm => absurd hm List.not_mem_nil⟩
  · rintro s a t hs ⟨-, rfl⟩
    exact hs.step a

theorem num_next (h : Inv c.swEnc s) (a : DefragAct) :
    num x (a.next c s) = num x s + a.frame.toList.count x := by
  have hall (p : FragEntry → Bool) : num x (s.purgeAll p fragmentMax) = num x s :=
    purgeAll_keeps (P := fun t => num x t = num x s) (fun t i hi ht => (num_purge hi).trans ht) (Nat.le_refl _) rfl
  cases a with
  | rx env skb => exact num_rx h
  | flush mac => exact hall _
  | stop => exact hall _

theorem num_path {l : List (Defrag × DefragAct)} (h : Path (defragSys c) s l t) (hs : Reach (defragSys c) s) :
    num x t = num x s + (l.flatMap fun p => p.2.frame.toList).count x := by
  induction h with
  | nil => rfl
  | cons hst _ ih =>
    have hn := num_next (x := x) (Defrag.Inv.reach hs)
    obtain ⟨-, rfl⟩ := hst
    rw [ih (hs.step ⟨trivial, rfl⟩), hn, List.flatMap_cons, List.count_append, Nat.add_assoc]

/-- **Only the fragments of one frame are put together**, each once; with software encryption under one key and with
consecutive packet numbers, if the first was encrypted with CCMP, and else without a key behind the first. -/
theorem defrag_sound {l : List (Defrag × DefragAct)} (h : Path (defragSys c) defragStart l t) :
    (∀ m ∈ t.frames, m.Made c.swEnc) ∧
      (t.frames.flatMap Msdu.parts ++ t.freed ++ t.cached).Perm (l.flatMap fun p => p.2.frame.toList) := by
  refine ⟨(Defrag.Inv.reach (h.reach (.init rfl))).made, List.perm_iff_count.mpr fun x => ?_⟩
  rw [List.count_append, List.count_append]
  show num x t = _
  rw [num_path h (.init rfl), show num x defragStart = 0 from rfl, Nat.zero_add]

/-- Three fragments of a frame, and one from another station. -/
def threeParts : List DefragAct :=
  let part (n : Nat) : FragSkb := ⟨2, n != 2, true, 0x0a, 0x0c, BitVec.ofNat 16 (80 + n), 24, [7], 0, some (1, true), 5 + n⟩
  [part 0, part 1, { part 0 with addr2 := 0x0e }, part 2].map (.rx ⟨0, true, true⟩)

theorem defrag_sound_threeParts :
    let t := threeParts.foldl (DefragAct.next ⟨true, 250⟩) defragStart
    t.frames.map (·.skb.body) = [[7, 7, 7]] ∧ (∀ m ∈ t.frames, m.Made true) ∧
      (t.frames.flatMap Msdu.parts ++ t.freed ++ t.cached).Perm (threeParts.filterMap DefragAct.frame) :=
  ⟨by decide, defrag_sound (c := ⟨true, 250⟩) (Path.ofFires (l := threeParts) (by decide))⟩

end AtbmWifi
