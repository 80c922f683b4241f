import AtbmWifi.Fw.Image

/-!
# One attempt of the firmware download

`AttemptOk` is the condition of an attempt on the state it starts in: a section is copied and sent only as far as
its bytes are there, and no image is asked for while one is held.  `loadAttempt_safe`: the attempt
is safe exactly then.  `loadParts_written` says what is in the device after a download that succeeds.
-/

namespace AtbmWifi

open Memory

def FwHdr.sendLen (h : FwHdr) : FwSection → Nat
  | .iccm => (h.len .iccm).toNat
  | .dccm => min (h.len .dccm).toNat 0xa000
  | .sram => (h.len .sram).toNat

section
variable (b : FwBuild) (e : LoadAttempt) (hdr : FwHdr) (v : FwSection → FwView)

def SectionDone (s : FwSection) : Prop := FwDone b (e.kalloc s) (e.writes s) (hdr.sendLen s)

/-- What is read of a section to send it is there. -/
def SectionReadable (s : FwSection) : Prop :=
  0 < fwSent b (e.kalloc s) (e.writes s) (hdr.sendLen s) →
    (v s).Has (fwSent b (e.kalloc s) (e.writes s) (hdr.sendLen s))

structure SendsOk : Prop where
  iccm : SectionReadable b e hdr v .iccm
  dccm : SectionDone b e hdr .iccm → SectionReadable b e hdr v .dccm
  sram : SectionDone b e hdr .iccm → SectionDone b e hdr .dccm → SectionReadable b e hdr v .sram

/-- There is nothing to copy, or a buffer for it. -/
def Copied (valloc : FwSection → Bool) (s : FwSection) : Prop := (hdr.len s).toNat = 0 ∨ valloc s = true

instance (valloc : FwSection → Bool) (s : FwSection) : Decidable (Copied hdr valloc s) :=
  inferInstanceAs (Decidable (_ ∨ _))

def CopyReadable (valloc : FwSection → Bool) (s : FwSection) : Prop :=
  (hdr.len s).toNat ≠ 0 → valloc s = true → (v s).Has (hdr.len s).toNat

structure CopiesOk (valloc : FwSection → Bool) : Prop where
  iccm : CopyReadable hdr v valloc .iccm
  dccm : Copied hdr valloc .iccm → CopyReadable hdr v valloc .dccm
  sram : Copied hdr valloc .iccm → Copied hdr valloc .dccm → (b.bleCodeSram && b.comb) = true →
    CopyReadable hdr v valloc .sram

def SaveFails (valloc : FwSection → Bool) : Prop :=
  ¬(Copied hdr valloc .iccm ∧ Copied hdr valloc .dccm ∧ ((b.bleCodeSram && b.comb) = true → Copied hdr valloc .sram))

end

def fileViews (b : FwBuild) (img : List UInt8) (st : LoadState) (s : FwSection) : FwView :=
  (imageRequested b img st).view ((fwOfFile b img st.images.length st.fw).2.ptr s)

def savedViews (b : FwBuild) (st : LoadState) (s : FwSection) : FwView := st.view ((atbmGetFw b st.cache st.fw).ptr s)

structure FileOk (b : FwBuild) (e : LoadAttempt) (img : List UInt8) (st : LoadState) : Prop where
  flag : 4 ≤ img.length
  head : fwHasHeader img = true → fwHdrSize ≤ img.length
  copies : (fwOfFile b img st.images.length st.fw).1 = true → b.savedFw = true →
    CopiesOk b (fwOfFile b img st.images.length st.fw).2.hdr (fileViews b img st) e.valloc
  /-- No SRAM copy of another setting stays behind. -/
  leftover : (fwOfFile b img st.images.length st.fw).1 = true → b.savedFw = true →
    SaveFails b (fwOfFile b img st.images.length st.fw).2.hdr e.valloc →
    (b.bleCodeSram && b.comb) = true ∨ st.cache.part .sram = none
  sends : (fwOfFile b img st.images.length st.fw).1 = true →
    SendsOk b e (fwOfFile b img st.images.length st.fw).2.hdr (fileViews b img st)

structure AttemptOk (b : FwBuild) (e : LoadAttempt) (st : LoadState) : Prop where
  saved : st.cache.ready = true → SendsOk b e st.cache.hdr (savedViews b st)
  alone : st.cache.ready = false → st.firmware = none
  file : st.cache.ready = false → ∀ img, e.request = .ok img → FileOk b e img st

/-- Every read so far was of bytes that are there, every image is held, and no copy was left in part. -/
structure LoadSafe (st : LoadState) : Prop where
  reads : ∀ r ∈ st.reads, r.Within
  held : ∀ k < st.images.length, st.firmware = some k
  saves : ∀ part ∈ st.failedSaves, ∀ s, part s = none

theorem view_congr {st st' : LoadState} {p : FwPtr} (h : st'.images = st.images) (hp : ∀ s, p ≠ .saved s) :
    st'.view p = st.view p := by
  cases p with
  | null => rfl
  | wild => rfl
  | image k off =>
    unfold LoadState.view
    rw [h]
  | saved s => exact absurd rfl (hp s)

section
variable {b : FwBuild} {valloc : FwSection → Bool} {st : LoadState} {v : FwSection → FwView}

theorem saveSection_spec (s : FwSection) (hv : ∀ t, st.view (st.fw.ptr t) = v t) :
    ∃ part reads, saveSection valloc s st =
        (decide (Copied st.cache.hdr valloc s),
          { st with cache := { st.cache with part := part }, reads := reads }) ∧
      (∀ t, t ≠ s → part t = st.cache.part t) ∧
      ((st.cache.hdr.len s).toNat ≠ 0 → valloc s = true → part s = some ((v s).data 0 (st.cache.hdr.len s).toNat)) ∧
      ((∀ r ∈ reads, r.Within) ↔ (∀ r ∈ st.reads, r.Within) ∧ CopyReadable st.cache.hdr v valloc s) := by
  unfold saveSection CopyReadable
  rw [hv]
  by_cases h0 : (st.cache.hdr.len s).toNat = 0
  · have hc : Copied st.cache.hdr valloc s := .inl h0
    refine ⟨st.cache.part, st.reads, ?_, fun _ _ => rfl, fun h => absurd h0 h, ?_⟩
    · rw [decide_eq_true hc]
      simp only [h0, if_true]
    · exact ⟨fun h => ⟨h, fun hne => absurd h0 hne⟩, fun h => h.1⟩
  · by_cases hva : valloc s = true
    · have hc : Copied st.cache.hdr valloc s := .inr hva
      refine ⟨setAt st.cache.part s (some ((v s).data 0 (st.cache.hdr.len s).toNat)),
        st.reads ++ [(v s).read 0 (st.cache.hdr.len s).toNat], ?_, fun t ht => setAt_of_ne ht _ _,
        fun _ _ => setAt_self _ _ _, ?_⟩
      · rw [decide_eq_true hc]
        simp only [h0, hva, if_false, if_true]
      · have hread : ((v s).read 0 (st.cache.hdr.len s).toNat).Within ↔ (v s).Has (st.cache.hdr.len s).toNat := by
          unfold FwRead.Within FwView.read FwView.Has
          dsimp only
          omega
        rw [List.forall_mem_append, List.forall_mem_singleton, hread]
        exact ⟨fun h => ⟨h.1, fun _ _ => h.2⟩, fun h => ⟨h.1, h.2 h0 hva⟩⟩
    · have hc : ¬Copied st.cache.hdr valloc s := fun h => h.elim h0 hva
      refine ⟨setAt st.cache.part s none, st.reads, ?_, fun t ht => setAt_of_ne ht _ _, fun _ h => absurd h hva, ?_⟩
      · rw [decide_eq_false hc]
        simp only [h0, hva, if_false]
        rfl
      · exact ⟨fun h => ⟨h, fun _ h' => absurd h' hva⟩, fun h => h.1⟩

theorem saveFailed_saves : (∀ part ∈ (saveFailed b st).failedSaves, ∀ s, part s = none) ↔
    (∀ part ∈ st.failedSaves, ∀ s, part s = none) ∧ ((b.bleCodeSram && b.comb) = true ∨ st.cache.part .sram = none) := by
  unfold saveFailed
  dsimp only
  rw [List.forall_mem_append, List.forall_mem_singleton]
  apply and_congr_right
  intro _
  cases hble : b.bleCodeSram && b.comb with
  | true =>
    refine iff_of_true ?_ (.inl rfl)
    intro s
    cases s <;> rfl
  | false =>
    constructor
    · exact fun h => .inr (h .sram)
    · rintro (h | h) s
      · exact absurd h Bool.false_ne_true
      · cases s
        · rfl
        · rfl
        · exact h

theorem saveFailed_ready : (saveFailed b st).cache.ready = false := by
  unfold saveFailed FwCache.ready
  cases b.bleCodeSram && b.comb <;> rfl

/-- What `atbm_set_firmare` makes of the saved firmware, if nothing was saved before: either a copy fails, or the
sections are copied. -/
structure SetPost (b : FwBuild) (valloc : FwSection → Bool) (v : FwSection → FwView) (st st' : LoadState) : Prop where
  frame : st' = { st with cache := st'.cache, reads := st'.reads, failedSaves := st'.failedSaves }
  reads : (∀ r ∈ st'.reads, r.Within) ↔
    (∀ r ∈ st.reads, r.Within) ∧ (b.savedFw = true → CopiesOk b st.fw.hdr v valloc)
  saves : (∀ part ∈ st'.failedSaves, ∀ s, part s = none) ↔ (∀ part ∈ st.failedSaves, ∀ s, part s = none) ∧
    (b.savedFw = true → SaveFails b st.fw.hdr valloc → (b.bleCodeSram && b.comb) = true ∨ st.cache.part .sram = none)
  copied : st'.cache.ready = true → b.savedFw = true ∧ ¬SaveFails b st.fw.hdr valloc ∧ st'.cache.hdr = st.fw.hdr ∧
    ∀ s, s ≠ .sram ∨ (b.bleCodeSram && b.comb) = true → (st.fw.hdr.len s).toNat ≠ 0 →
      st'.cache.part s = some ((v s).data 0 (st.fw.hdr.len s).toNat)

theorem copiesOk_iff {hdr : FwHdr} : CopiesOk b hdr v valloc ↔
    CopyReadable hdr v valloc .iccm ∧ (Copied hdr valloc .iccm → CopyReadable hdr v valloc .dccm ∧
      (Copied hdr valloc .dccm → (b.bleCodeSram && b.comb) = true → CopyReadable hdr v valloc .sram)) := by
  constructor
  · exact fun h => ⟨h.iccm, fun hi => ⟨h.dccm hi, fun hd => h.sram hi hd⟩⟩
  · exact fun h => ⟨h.1, fun hi => (h.2 hi).1, fun hi hd => (h.2 hi).2 hd⟩

theorem setPost_failed {part : FwSection → Option (List UInt8)} {reads : List FwRead} (hsaved : b.savedFw = true)
    (hreads : (∀ r ∈ reads, r.Within) ↔ (∀ r ∈ st.reads, r.Within) ∧ CopiesOk b st.fw.hdr v valloc)
    (hfails : SaveFails b st.fw.hdr valloc)
    (hsram : (b.bleCodeSram && b.comb) = true ∨ part .sram = st.cache.part .sram) :
    SetPost b valloc v st (saveFailed b { st with cache := ⟨st.fw.hdr, part⟩, reads := reads }) := by
  refine ⟨rfl, ?_, ?_, ?_⟩
  · exact hreads.trans ⟨fun h => ⟨h.1, fun _ => h.2⟩, fun h => ⟨h.1, h.2 hsaved⟩⟩
  · rw [saveFailed_saves]
    dsimp only
    rcases hsram with hble | hpart
    · exact ⟨fun h => ⟨h.1, fun _ _ => .inl hble⟩, fun h => ⟨h.1, .inl hble⟩⟩
    · rw [hpart]
      exact ⟨fun h => ⟨h.1, fun _ _ => h.2⟩, fun h => ⟨h.1, h.2 hsaved hfails⟩⟩
  · intro h
    exact absurd (saveFailed_ready.symm.trans h) Bool.false_ne_true

theorem setPost_done {part : FwSection → Option (List UInt8)} {reads : List FwRead} (hsaved : b.savedFw = true)
    (hreads : (∀ r ∈ reads, r.Within) ↔ (∀ r ∈ st.reads, r.Within) ∧ CopiesOk b st.fw.hdr v valloc)
    (hdone : ¬SaveFails b st.fw.hdr valloc)
    (hpart : ∀ s, s ≠ .sram ∨ (b.bleCodeSram && b.comb) = true → (st.fw.hdr.len s).toNat ≠ 0 →
      part s = some ((v s).data 0 (st.fw.hdr.len s).toNat)) :
    SetPost b valloc v st { st with cache := ⟨st.fw.hdr, part⟩, reads := reads } := by
  refine ⟨rfl, ?_, ?_, fun _ => ⟨hsaved, hdone, rfl, hpart⟩⟩
  · exact hreads.trans ⟨fun h => ⟨h.1, fun _ => h.2⟩, fun h => ⟨h.1, h.2 hsaved⟩⟩
  · exact ⟨fun h => ⟨h, fun _ hf => absurd hf hdone⟩, fun h => h.1⟩

theorem setFirmare_post (hready : st.cache.ready = false) (hiccm : st.fw.ptr .iccm ≠ .null)
    (hptr : ∀ s t, st.fw.ptr s ≠ .saved t) (hv : ∀ t, st.view (st.fw.ptr t) = v t) :
    SetPost b valloc v st (atbmSetFirmare b valloc st) := by
  unfold atbmSetFirmare
  cases hsaved : b.savedFw with
  | false =>
    rw [if_pos (by rfl)]
    refine ⟨rfl, ?_, ?_, ?_⟩
    · exact ⟨fun h => ⟨h, fun h' => absurd (hsaved.symm.trans h') Bool.false_ne_true⟩, fun h => h.1⟩
    · exact ⟨fun h => ⟨h, fun h' => absurd (hsaved.symm.trans h') Bool.false_ne_true⟩, fun h => h.1⟩
    · intro h
      exact absurd (hready.symm.trans h) Bool.false_ne_true
  | true =>
    rw [if_neg (by decide), if_neg (fun h => hiccm h.2), if_neg (by rw [hready]; decide)]
    have hviews : ∀ (c : FwCache) (reads : List FwRead) (t : FwSection),
        LoadState.view { st with cache := c, reads := reads } (st.fw.ptr t) = v t := by
      intro c reads t
      rw [← hv t]
      exact view_congr rfl (hptr t)
    obtain ⟨partI, readsI, heqI, hotherI, hpartI, hreadsI⟩ := @saveSection_spec valloc
      { st with cache := ⟨st.fw.hdr, st.cache.part⟩ } v .iccm (hviews _ _)
    change SetPost b valloc v st (if (!(saveSection valloc .iccm { st with cache := ⟨st.fw.hdr, st.cache.part⟩ }).1) = true
      then saveFailed b (saveSection valloc .iccm { st with cache := ⟨st.fw.hdr, st.cache.part⟩ }).2 else _)
    rw [heqI]
    dsimp only at hreadsI hpartI hotherI ⊢
    have hvalloc : ∀ {s}, Copied st.fw.hdr valloc s → (st.fw.hdr.len s).toNat ≠ 0 → valloc s = true :=
      fun h h0 => h.resolve_left h0
    by_cases hcI : Copied st.fw.hdr valloc .iccm
    · rw [decide_eq_true hcI, if_neg (by decide)]
      obtain ⟨partD, readsD, heqD, hotherD, hpartD, hreadsD⟩ := @saveSection_spec valloc
        { st with cache := ⟨st.fw.hdr, partI⟩, reads := readsI } v .dccm (hviews _ _)
      rw [heqD]
      dsimp only at hreadsD hpartD hotherD ⊢
      have hsramD : partD .sram = st.cache.part .sram :=
        (hotherD .sram FwSection.noConfusion).trans (hotherI .sram FwSection.noConfusion)
      have hiccmD : (st.fw.hdr.len .iccm).toNat ≠ 0 → partD .iccm = some ((v .iccm).data 0 (st.fw.hdr.len .iccm).toNat) :=
        fun h0 => (hotherD .iccm FwSection.noConfusion).trans (hpartI h0 (hvalloc hcI h0))
      by_cases hcD : Copied st.fw.hdr valloc .dccm
      · rw [decide_eq_true hcD, if_neg (by decide)]
        cases hble : b.bleCodeSram && b.comb with
        | false =>
          rw [if_neg Bool.false_ne_true]
          apply setPost_done hsaved
          · rw [hreadsD, hreadsI, copiesOk_iff, hble]
            simp only [hcI, hcD, Bool.false_eq_true, false_imp_iff, imp_true_iff, and_true, true_imp_iff, and_assoc]
          · exact fun hf => hf ⟨hcI, hcD, fun h => absurd (hble.symm.trans h) Bool.false_ne_true⟩
          · intro s hs h0
            rcases hs with hs | hs
            · cases s with
              | iccm => exact hiccmD h0
              | dccm => exact hpartD h0 (hvalloc hcD h0)
              | sram => exact absurd rfl hs
            · exact absurd (hble.symm.trans hs) Bool.false_ne_true
        | true =>
          rw [if_pos rfl]
          obtain ⟨partS, readsS, heqS, hotherS, hpartS, hreadsS⟩ := @saveSection_spec valloc
            { st with cache := ⟨st.fw.hdr, partD⟩, reads := readsD } v .sram
            (hviews _ _)
          rw [heqS]
          dsimp only at hreadsS hpartS hotherS ⊢
          have hreads : (∀ r ∈ readsS, r.Within) ↔ (∀ r ∈ st.reads, r.Within) ∧ CopiesOk b st.fw.hdr v valloc := by
            rw [hreadsS, hreadsD, hreadsI, copiesOk_iff, hble]
            simp only [hcI, hcD, true_imp_iff, and_assoc]
          by_cases hcS : Copied st.fw.hdr valloc .sram
          · rw [decide_eq_true hcS, if_neg (by decide)]
            apply setPost_done hsaved hreads
            · exact fun hf => hf ⟨hcI, hcD, fun _ => hcS⟩
            · intro s _ h0
              cases s with
              | iccm => exact (hotherS .iccm FwSection.noConfusion).trans (hiccmD h0)
              | dccm => exact (hotherS .dccm FwSection.noConfusion).trans (hpartD h0 (hvalloc hcD h0))
              | sram => exact hpartS h0 (hvalloc hcS h0)
          · rw [decide_eq_false hcS, if_pos (by decide)]
            exact setPost_failed hsaved hreads (fun h => hcS (h.2.2 hble)) (.inl hble)
      · rw [decide_eq_false hcD, if_pos (by decide)]
        apply setPost_failed hsaved _ (fun h => hcD h.2.1) (.inr hsramD)
        rw [hreadsD, hreadsI, copiesOk_iff]
        simp only [hcI, hcD, false_imp_iff, and_true, true_imp_iff, and_assoc]
    · rw [decide_eq_false hcI, if_pos (by decide)]
      apply setPost_failed hsaved _ (fun h => hcI h.1) (.inr (hotherI .sram FwSection.noConfusion))
      rw [hreadsI, copiesOk_iff]
      simp only [hcI, false_imp_iff, and_true]

end

section
variable {b : FwBuild} {e : LoadAttempt} {st : LoadState} {v : FwSection → FwView} {s : FwSection} {addr n : Nat}

/-- A part came to its end with a value that is no error. -/
def Went (p : Option Int × LoadState) : Prop := ∃ r, 0 ≤ r ∧ p.1 = some r

theorem thenLoad_went {p : Option Int × LoadState} {next : LoadState → Option Int × LoadState} (h : Went p) :
    thenLoad p next = next p.2 := by
  obtain ⟨r, hr, hret⟩ := h
  unfold thenLoad
  rw [hret]
  exact if_neg (by omega)

theorem thenLoad_stopped {p : Option Int × LoadState} {next : LoadState → Option Int × LoadState} (h : ¬Went p) :
    thenLoad p next = p := by
  unfold thenLoad
  cases hret : p.1 with
  | none => rfl
  | some r =>
    dsimp only
    rw [if_pos]
    rcases Int.lt_or_le r 0 with hneg | hpos
    · exact hneg
    · exact absurd ⟨r, hpos, hret⟩ h

theorem cutDccm_len : ((cutDccm st).fw.hdr.len .dccm).toNat = st.fw.hdr.sendLen .dccm := by
  unfold cutDccm FwHdr.sendLen
  dsimp only
  rw [setAt_self]
  have hmax : dccmMax.toNat = 0xa000 := rfl
  by_cases h : dccmMax < st.fw.hdr.len .dccm
  · have hlt := UInt32.lt_iff_toNat_lt.mp h
    rw [if_pos h]
    omega
  · have hle : ¬dccmMax.toNat < (st.fw.hdr.len .dccm).toNat := fun hlt => h (UInt32.lt_iff_toNat_lt.mpr hlt)
    rw [if_neg h]
    omega

theorem loadPart_post (hlen : (st.fw.hdr.len s).toNat = n) :
    ((∀ r ∈ (loadPart b e s addr st).2.reads, r.Within) ↔ (∀ r ∈ st.reads, r.Within) ∧
      (0 < fwSent b (e.kalloc s) (e.writes s) n →
        (st.view (st.fw.ptr s)).Has (fwSent b (e.kalloc s) (e.writes s) n))) ∧
    (Went (loadPart b e s addr st) ↔ FwDone b (e.kalloc s) (e.writes s) n) ∧
    (Went (loadPart b e s addr st) → ∃ ws, (loadPart b e s addr st).2.writes = st.writes ++ ws ∧
      FwWrittenAt addr ws ((st.view (st.fw.ptr s)).data 0 n)) := by
  subst hlen
  refine ⟨?_, ?_, ?_⟩
  · unfold loadPart
    dsimp only
    rw [List.forall_mem_append, loadGeneric_reads (UInt32.toNat_lt _)]
  · exact loadGeneric_done _
  · intro h
    have hdone := (loadGeneric_done _).mp h
    obtain ⟨r, hr, hret⟩ := h
    exact ⟨_, rfl, loadGeneric_written hdone hr hret⟩

theorem loadParts_frame (b : FwBuild) (e : LoadAttempt) (st : LoadState) :
    ∃ hdr reads writes, (loadParts b e st).2 = { st with fw := ⟨hdr, st.fw.ptr⟩, reads := reads, writes := writes } := by
  have hthen : ∀ (p : Option Int × LoadState) (next : LoadState → Option Int × LoadState),
      (∃ hdr reads writes, p.2 = { st with fw := ⟨hdr, st.fw.ptr⟩, reads := reads, writes := writes }) →
      (∀ st', (∃ hdr reads writes, st' = { st with fw := ⟨hdr, st.fw.ptr⟩, reads := reads, writes := writes }) →
        ∃ hdr reads writes, (next st').2 = { st with fw := ⟨hdr, st.fw.ptr⟩, reads := reads, writes := writes }) →
      ∃ hdr reads writes, (thenLoad p next).2 = { st with fw := ⟨hdr, st.fw.ptr⟩, reads := reads, writes := writes } := by
    intro p next hp hnext
    by_cases h : Went p
    · rw [thenLoad_went h]
      exact hnext _ hp
    · rw [thenLoad_stopped h]
      exact hp
  have hdccm := hthen (loadPart b e .iccm b.itcmAddr st) (fun st => loadPart b e .dccm b.dtcmAddr (cutDccm st))
    ⟨st.fw.hdr, _, _, rfl⟩ (by
      rintro _ ⟨hdr, reads, writes, rfl⟩
      exact ⟨_, _, _, rfl⟩)
  unfold loadParts
  dsimp only
  split
  · exact hdccm
  · apply hthen _ _ hdccm
    rintro _ ⟨hdr, reads, writes, rfl⟩
    exact ⟨_, _, _, rfl⟩

/-- What a download reads, and what it has written when it succeeds. -/
structure PartsPost (b : FwBuild) (e : LoadAttempt) (hdr : FwHdr) (v : FwSection → FwView) (st : LoadState)
    (p : Option Int × LoadState) : Prop where
  reads : (∀ r ∈ p.2.reads, r.Within) ↔ (∀ r ∈ st.reads, r.Within) ∧ SendsOk b e hdr v
  written : Went p → (hdr.len .sram ≠ 0 → SectionDone b e hdr .iccm ∧ SectionDone b e hdr .dccm ∧
      SectionDone b e hdr .sram) ∧
    ∃ wi wd ws, p.2.writes = st.writes ++ (wi ++ wd ++ ws) ∧
      FwWrittenAt b.itcmAddr wi ((v .iccm).data 0 (hdr.sendLen .iccm)) ∧
      FwWrittenAt b.dtcmAddr wd ((v .dccm).data 0 (hdr.sendLen .dccm)) ∧
      (hdr.len .sram = 0 → ws = []) ∧
      (hdr.len .sram ≠ 0 → FwWrittenAt hdr.sramAddr.toNat ws ((v .sram).data 0 (hdr.sendLen .sram)))

theorem sectionReadable_empty {hdr : FwHdr} (h : hdr.sendLen s = 0) : SectionReadable b e hdr v s := by
  intro hsent
  have hle : fwSent b (e.kalloc s) (e.writes s) (hdr.sendLen s) ≤ hdr.sendLen s := by
    unfold fwSent
    split
    · exact Nat.min_le_left _ _
    · exact Nat.zero_le _
  omega

theorem loadParts_post (hv : ∀ s, st.view (st.fw.ptr s) = v s) :
    PartsPost b e st.fw.hdr v st (loadParts b e st) := by
  obtain ⟨hreadsI, hwentI, hwriteI⟩ := @loadPart_post b e st .iccm b.itcmAddr _ rfl
  rw [hv] at hreadsI hwriteI
  unfold loadParts
  by_cases hI : Went (loadPart b e .iccm b.itcmAddr st)
  · have hdoneI : SectionDone b e st.fw.hdr .iccm := hwentI.mp hI
    obtain ⟨wi, hwi, hatI⟩ := hwriteI hI
    rw [thenLoad_went hI]
    dsimp only
    obtain ⟨hreadsD, hwentD, hwriteD⟩ := @loadPart_post b e (cutDccm (loadPart b e .iccm b.itcmAddr st).2) .dccm
      b.dtcmAddr _ cutDccm_len
    have hviewD : (cutDccm (loadPart b e .iccm b.itcmAddr st).2).view
        ((cutDccm (loadPart b e .iccm b.itcmAddr st).2).fw.ptr .dccm) = v .dccm := hv .dccm
    rw [hviewD] at hreadsD hwriteD
    have hsramLen : (loadPart b e .dccm b.dtcmAddr (cutDccm (loadPart b e .iccm b.itcmAddr st).2)).2.fw.hdr.len .sram =
        st.fw.hdr.len .sram := rfl
    rw [hsramLen]
    by_cases hD : Went (loadPart b e .dccm b.dtcmAddr (cutDccm (loadPart b e .iccm b.itcmAddr st).2))
    · have hdoneD : SectionDone b e st.fw.hdr .dccm := hwentD.mp hD
      obtain ⟨wd, hwd, hatD⟩ := hwriteD hD
      have hwrites : (loadPart b e .dccm b.dtcmAddr (cutDccm (loadPart b e .iccm b.itcmAddr st).2)).2.writes =
          st.writes ++ (wi ++ wd) := by
        rw [hwd, ← List.append_assoc]
        exact congrArg (· ++ wd) hwi
      by_cases h0 : st.fw.hdr.len .sram = 0
      · rw [if_pos h0]
        have hempty : st.fw.hdr.sendLen .sram = 0 := by
          show (st.fw.hdr.len .sram).toNat = 0
          rw [h0]
          rfl
        refine ⟨?_, fun _ => ⟨fun hne => absurd h0 hne, wi, wd, [], ?_, hatI, hatD, fun _ => rfl, fun hne => absurd h0 hne⟩⟩
        · refine hreadsD.trans ⟨fun h => ?_, fun h => ⟨hreadsI.mpr ⟨h.1, h.2.iccm⟩, h.2.dccm hdoneI⟩⟩
          obtain ⟨hbefore, hdccm⟩ := h
          obtain ⟨hst, hiccm⟩ := hreadsI.mp hbefore
          exact ⟨hst, hiccm, fun _ => hdccm, fun _ _ => sectionReadable_empty hempty⟩
        · rw [List.append_nil]
          exact hwrites
      · rw [if_neg h0, thenLoad_went hD]
        obtain ⟨hreadsS, hwentS, hwriteS⟩ := @loadPart_post b e
          (loadPart b e .dccm b.dtcmAddr (cutDccm (loadPart b e .iccm b.itcmAddr st).2)).2 .sram
          st.fw.hdr.sramAddr.toNat (st.fw.hdr.sendLen .sram) rfl
        have hviewS : (loadPart b e .dccm b.dtcmAddr (cutDccm (loadPart b e .iccm b.itcmAddr st).2)).2.view
            ((loadPart b e .dccm b.dtcmAddr (cutDccm (loadPart b e .iccm b.itcmAddr st).2)).2.fw.ptr .sram) = v .sram :=
          hv .sram
        rw [hviewS] at hreadsS hwriteS
        refine ⟨?_, ?_⟩
        · refine hreadsS.trans ⟨fun h => ?_, fun h => ?_⟩
          · obtain ⟨hbefore, hdccm⟩ := hreadsD.mp h.1
            obtain ⟨hst, hiccm⟩ := hreadsI.mp hbefore
            exact ⟨hst, hiccm, fun _ => hdccm, fun _ _ => h.2⟩
          · exact ⟨hreadsD.mpr ⟨hreadsI.mpr ⟨h.1, h.2.iccm⟩, h.2.dccm hdoneI⟩, h.2.sram hdoneI hdoneD⟩
        · intro hS
          obtain ⟨ws, hws, hatS⟩ := hwriteS hS
          refine ⟨fun _ => ⟨hdoneI, hdoneD, hwentS.mp hS⟩, wi, wd, ws, ?_, hatI, hatD, fun h => absurd h h0, fun _ => hatS⟩
          refine hws.trans ?_
          rw [hwrites, List.append_assoc]
    · have hnotD : ¬SectionDone b e st.fw.hdr .dccm := fun h => hD (hwentD.mpr h)
      have hsame : (if st.fw.hdr.len .sram = 0 then
          loadPart b e .dccm b.dtcmAddr (cutDccm (loadPart b e .iccm b.itcmAddr st).2)
          else thenLoad (loadPart b e .dccm b.dtcmAddr (cutDccm (loadPart b e .iccm b.itcmAddr st).2)) fun st =>
            loadPart b e .sram st.fw.hdr.sramAddr.toNat st) =
          loadPart b e .dccm b.dtcmAddr (cutDccm (loadPart b e .iccm b.itcmAddr st).2) := by
        rw [thenLoad_stopped hD]
        exact ite_self _
      rw [hsame]
      refine ⟨?_, fun h => absurd h hD⟩
      refine hreadsD.trans ⟨fun h => ?_, fun h => ⟨hreadsI.mpr ⟨h.1, h.2.iccm⟩, h.2.dccm hdoneI⟩⟩
      obtain ⟨hbefore, hdccm⟩ := h
      obtain ⟨hst, hiccm⟩ := hreadsI.mp hbefore
      exact ⟨hst, hiccm, fun _ => hdccm, fun _ hd => absurd hd hnotD⟩
  · have hnotI : ¬SectionDone b e st.fw.hdr .iccm := fun h => hI (hwentI.mpr h)
    rw [thenLoad_stopped hI]
    dsimp only
    rw [thenLoad_stopped hI, ite_self]
    refine ⟨?_, fun h => absurd h hI⟩
    refine hreadsI.trans ⟨fun h => ⟨h.1, h.2, fun hd => absurd hd hnotI, fun hd => absurd hd hnotI⟩, fun h => ⟨h.1, h.2.iccm⟩⟩

end

/-- What holds where an attempt starts: `firmware` is an image, and without a saved firmware no pointer is into one. -/
structure LoadShape (st : LoadState) : Prop where
  firmware : ∀ k, st.firmware = some k → k < st.images.length
  ptr : st.cache.ready = false → ∀ s t, st.fw.ptr s ≠ .saved t

section
variable {b : FwBuild} {e : LoadAttempt} {st : LoadState} {img : List UInt8}

theorem fwOfFile_iccm {k : Nat} {fw : FwAltobeam} (h : (fwOfFile b img k fw).1 = true) :
    (fwOfFile b img k fw).2.ptr .iccm ≠ .null := by
  unfold fwOfFile at h ⊢
  by_cases hhead : fwHasHeader img = true
  · rw [if_pos hhead]
    dsimp only
    split <;> exact FwPtr.noConfusion
  · rw [if_neg hhead] at h ⊢
    dsimp only at h ⊢
    split
    · rename_i hlarge
      rw [if_pos hlarge] at h
      split
      · rename_i hover
        rw [if_pos hover] at h
        exact absurd h Bool.false_ne_true
      · exact FwPtr.noConfusion
    · exact FwPtr.noConfusion

theorem fwOfFile_ptr {k : Nat} {fw : FwAltobeam} (h : ∀ s t, fw.ptr s ≠ .saved t) (s t : FwSection) :
    (fwOfFile b img k fw).2.ptr s ≠ .saved t := by
  have hset : ∀ (f : FwSection → FwPtr) (a : FwSection) (k off : Nat), (∀ s t, f s ≠ .saved t) →
      ∀ s t, setAt f a (.image k off) s ≠ .saved t := by
    intro f a k off hf s t
    unfold setAt
    split
    · exact FwPtr.noConfusion
    · exact hf s t
  unfold fwOfFile
  by_cases hhead : fwHasHeader img = true
  · rw [if_pos hhead]
    dsimp only
    split
    · cases s <;> exact FwPtr.noConfusion
    · cases s
      · exact FwPtr.noConfusion
      · exact FwPtr.noConfusion
      · exact h .sram t
  · rw [if_neg hhead]
    dsimp only
    split
    · split
      · exact h s t
      · exact hset _ _ _ _ (hset _ _ _ _ h) s t
    · exact hset _ _ _ _ h s t

theorem held_none (hfirm : ∀ k, st.firmware = some k → k < st.images.length) :
    st.images.length = 0 ↔ (∀ k < st.images.length, st.firmware = some k) ∧ st.firmware = none := by
  constructor
  · intro h
    rw [h]
    refine ⟨fun k hk => absurd hk (Nat.not_lt_zero k), ?_⟩
    cases hf : st.firmware with
    | none => rfl
    | some k =>
      have := hfirm k hf
      omega
  · rintro ⟨hheld, hnone⟩
    rcases Nat.eq_zero_or_pos st.images.length with h | h
    · exact h
    · rw [hheld 0 h] at hnone
      cases hnone

theorem imageRequested_reads : (∀ r ∈ (imageRequested b img st).reads, r.Within) ↔
    (∀ r ∈ st.reads, r.Within) ∧ 4 ≤ img.length ∧ (fwHasHeader img = true → fwHdrSize ≤ img.length) := by
  unfold imageRequested
  dsimp only
  rw [List.forall_mem_append, List.forall_mem_cons]
  have hflag : (⟨0, 4, img.length⟩ : FwRead).Within ↔ 4 ≤ img.length := by
    unfold FwRead.Within
    dsimp only
    omega
  have hhead : (⟨0, fwHdrSize, img.length⟩ : FwRead).Within ↔ fwHdrSize ≤ img.length := by
    unfold FwRead.Within
    dsimp only
    omega
  rw [hflag]
  apply and_congr_right
  intro _
  apply and_congr_right
  intro _
  by_cases h : fwHasHeader img = true
  · rw [if_pos h, List.forall_mem_singleton, hhead]
    exact ⟨fun h' _ => h', fun h' => h' h⟩
  · rw [if_neg h]
    exact iff_of_true (fun _ h => (List.not_mem_nil h).elim) fun h' => absurd h' h

theorem imageRequested_held (hfirm : ∀ k, st.firmware = some k → k < st.images.length) :
    (∀ k < (imageRequested b img st).images.length, (imageRequested b img st).firmware = some k) ↔
      (∀ k < st.images.length, st.firmware = some k) ∧ st.firmware = none := by
  rw [← held_none hfirm]
  unfold imageRequested
  dsimp only
  rw [List.length_append]
  constructor
  · intro h
    have hzero := h 0 (by rw [List.length_singleton]; omega)
    exact Option.some.inj hzero
  · intro h k hk
    rw [h] at hk ⊢
    have hlen : [img].length = 1 := rfl
    have hk0 : k = 0 := by omega
    rw [hk0]

theorem attemptOk_image (hready : st.cache.ready = false) (hreq : e.request = .ok img) :
    AttemptOk b e st ↔ st.firmware = none ∧ FileOk b e img st := by
  constructor
  · exact fun h => ⟨h.alone hready, h.file hready img hreq⟩
  · rintro ⟨halone, hfile⟩
    refine ⟨fun h => absurd (hready.symm.trans h) Bool.false_ne_true, fun _ => halone, ?_⟩
    intro _ img' himg'
    rw [hreq] at himg'
    cases himg'
    exact hfile

/-- What an attempt comes to: a download of the saved firmware, a request that is refused, an image that is too
large, or a download of an image. -/
inductive AttemptPost (b : FwBuild) (e : LoadAttempt) (st : LoadState) : Option Int × LoadState → Prop
  | saved (ret : Option Int) (hdr : FwHdr) (reads : List FwRead) (writes : List FwWrite)
      (ready : st.cache.ready = true)
      (post : PartsPost b e st.cache.hdr (savedViews b st) st
        (ret, { st with fw := ⟨hdr, (atbmGetFw b st.cache st.fw).ptr⟩, reads := reads, writes := writes })) :
      AttemptPost b e st
        (ret, { st with fw := ⟨hdr, (atbmGetFw b st.cache st.fw).ptr⟩, reads := reads, writes := writes })
  | refused (n : Nat) (ready : st.cache.ready = false) (request : e.request = .error n) :
      AttemptPost b e st (some (-(n + 1)), { st with firmware := none })
  | large (img : List UInt8) (ready : st.cache.ready = false) (request : e.request = .ok img)
      (bad : ¬(fwOfFile b img st.images.length st.fw).1 = true) : AttemptPost b e st (some (-1), imageRequested b img st)
  | image (img : List UInt8) (set : LoadState) (ret : Option Int) (hdr : FwHdr) (reads : List FwRead)
      (writes : List FwWrite) (ready : st.cache.ready = false) (request : e.request = .ok img)
      (good : (fwOfFile b img st.images.length st.fw).1 = true)
      (copied : SetPost b e.valloc (fileViews b img st) (imageRequested b img st) set)
      (post : PartsPost b e (fwOfFile b img st.images.length st.fw).2.hdr (fileViews b img st) set
        (ret, { set with fw := ⟨hdr, set.fw.ptr⟩, reads := reads, writes := writes })) :
      AttemptPost b e st (ret, { set with fw := ⟨hdr, set.fw.ptr⟩, reads := reads, writes := writes })

theorem loadAttempt_post (hshape : LoadShape st) : AttemptPost b e st (loadAttempt b e st) := by
  unfold loadAttempt loadSource
  cases hready : st.cache.ready with
  | true =>
    rw [if_pos rfl]
    dsimp only
    have hpost := @loadParts_post b e { st with fw := atbmGetFw b st.cache st.fw } (savedViews b st) fun s => rfl
    obtain ⟨hdr, reads, writes, hframe⟩ := loadParts_frame b e { st with fw := atbmGetFw b st.cache st.fw }
    generalize loadParts b e { st with fw := atbmGetFw b st.cache st.fw } = p at hframe hpost
    obtain ⟨ret, p⟩ := p
    dsimp only at hframe
    subst hframe
    exact .saved ret hdr reads writes hready ⟨hpost.reads, hpost.written⟩
  | false =>
    rw [if_neg Bool.false_ne_true]
    cases hreq : e.request with
    | error n => exact .refused n hready hreq
    | ok img =>
      dsimp only
      by_cases hgood : (fwOfFile b img st.images.length st.fw).1 = true
      · rw [if_pos hgood]
        dsimp only
        have hptr := @fwOfFile_ptr b img st.images.length st.fw (hshape.ptr hready)
        have hset := @setFirmare_post b e.valloc (imageRequested b img st) (fileViews b img st) hready
          (fwOfFile_iccm hgood) hptr fun s => rfl
        generalize atbmSetFirmare b e.valloc (imageRequested b img st) = set at hset
        have hviews : ∀ s, set.view (set.fw.ptr s) = fileViews b img st s := by
          intro s
          rw [hset.frame]
          exact view_congr rfl (hptr s)
        have hpost := @loadParts_post b e set _ hviews
        have hhdr : set.fw.hdr = (fwOfFile b img st.images.length st.fw).2.hdr := by
          rw [hset.frame]
          rfl
        rw [hhdr] at hpost
        obtain ⟨hdr, reads, writes, hframe⟩ := loadParts_frame b e set
        generalize loadParts b e set = p at hframe hpost
        obtain ⟨ret, p⟩ := p
        dsimp only at hframe
        subst hframe
        exact .image img set ret hdr reads writes hready hreq hgood hset hpost
      · rw [if_neg hgood]
        exact .large img hready hreq hgood

/-- **The attempt.**  It is safe exactly when its condition holds in the state it starts in. -/
theorem loadAttempt_safe (hshape : LoadShape st) :
    LoadSafe (loadAttempt b e st).2 ↔ LoadSafe st ∧ AttemptOk b e st := by
  have hpost := @loadAttempt_post b e st hshape
  generalize loadAttempt b e st = p at hpost
  cases hpost with
  | saved ret hdr reads writes ready post =>
    have hnot : ¬st.cache.ready = false := by
      rw [ready]
      exact Bool.noConfusion
    constructor
    · intro h
      obtain ⟨hreads, hsends⟩ := post.reads.mp h.reads
      exact ⟨⟨hreads, h.held, h.saves⟩, fun _ => hsends, fun h => absurd h hnot, fun h => absurd h hnot⟩
    · rintro ⟨hsafe, hok⟩
      exact ⟨post.reads.mpr ⟨hsafe.reads, hok.saved ready⟩, hsafe.held, hsafe.saves⟩
  | refused n ready request =>
    constructor
    · intro h
      have hlen : st.images.length = 0 := by
        rcases Nat.eq_zero_or_pos st.images.length with h0 | hpos
        · exact h0
        · have hheld : none = some 0 := h.held 0 hpos
          cases hheld
      obtain ⟨hheld, hnone⟩ := (held_none hshape.firmware).mp hlen
      refine ⟨⟨h.reads, hheld, h.saves⟩, fun h => absurd (ready.symm.trans h) Bool.false_ne_true, fun _ => hnone, ?_⟩
      intro _ img hok
      rw [request] at hok
      cases hok
    · rintro ⟨hsafe, hok⟩
      have hlen := (held_none hshape.firmware).mpr ⟨hsafe.held, hok.alone ready⟩
      refine ⟨hsafe.reads, fun k hk => ?_, hsafe.saves⟩
      dsimp only at hk
      omega
  | large img ready request bad =>
    rw [attemptOk_image ready request]
    constructor
    · intro h
      obtain ⟨hreads, hflag, hhead⟩ := imageRequested_reads.mp h.reads
      obtain ⟨hheld, hnone⟩ := (imageRequested_held hshape.firmware).mp h.held
      exact ⟨⟨hreads, hheld, h.saves⟩, hnone, hflag, hhead, fun h => absurd h bad, fun h => absurd h bad,
        fun h => absurd h bad⟩
    · rintro ⟨hsafe, hnone, hfile⟩
      exact ⟨imageRequested_reads.mpr ⟨hsafe.reads, hfile.flag, hfile.head⟩,
        (imageRequested_held hshape.firmware).mpr ⟨hsafe.held, hnone⟩, hsafe.saves⟩
  | image img set ret hdr reads writes ready request good copied post =>
    rw [attemptOk_image ready request]
    have hheldIff := @imageRequested_held b st img hshape.firmware
    have himages : set.images = (imageRequested b img st).images := by rw [copied.frame]
    have hfirm : set.firmware = (imageRequested b img st).firmware := by rw [copied.frame]
    rw [← himages, ← hfirm] at hheldIff
    constructor
    · intro h
      obtain ⟨hreadsSet, hsends⟩ := post.reads.mp h.reads
      obtain ⟨hreads, hcopies⟩ := copied.reads.mp hreadsSet
      obtain ⟨hst, hflag, hhead⟩ := imageRequested_reads.mp hreads
      obtain ⟨hstHeld, hnone⟩ := hheldIff.mp h.held
      obtain ⟨hstSaves, hleft⟩ := copied.saves.mp h.saves
      exact ⟨⟨hst, hstHeld, hstSaves⟩, hnone, hflag, hhead, fun _ => hcopies, fun _ => hleft, fun _ => hsends⟩
    · rintro ⟨hsafe, hnone, hok⟩
      have hreads := (@imageRequested_reads b st img).mpr ⟨hsafe.reads, hok.flag, hok.head⟩
      exact ⟨post.reads.mpr ⟨copied.reads.mpr ⟨hreads, hok.copies good⟩, hok.sends good⟩,
        hheldIff.mpr ⟨hsafe.held, hnone⟩, copied.saves.mpr ⟨hsafe.saves, hok.leftover good⟩⟩

end

end AtbmWifi
