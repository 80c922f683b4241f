import AtbmWifi.Fw.ImageAttempt

/-!
# The firmware download

`FwPlan` is what an image, or the saved firmware, is to leave in the device.  `startLoad_sound_iff`: a call reads only
what is there, leaves the plan in the device when it returns no error, releases every image once and keeps no copy in
part, exactly when every attempt it makes meets `AttemptOk` in the state it starts in.
-/

namespace AtbmWifi

open Memory

/-- The sections, and the address of the SRAM section if there is one -/
structure FwPlan where
  iccm : List UInt8
  dccm : List UInt8
  sram : Option (Nat × List UInt8)

/-- `n` bytes of the object at `off` -/
def fwBytes (obj : List UInt8) (off n : Nat) : List UInt8 := read (fun i => obj.getD i 0) off n

def FwPlan.ofImage (b : FwBuild) (img : List UInt8) : FwPlan :=
  if fwHasHeader img then
    let iccm := (fwWord img 8).toNat
    let dccm := (fwWord img 12).toNat
    let addr := if b.bleCodeSram && fwWord img 0 == fwHdrFlag then b.bleSramAddr else fwWord img 20
    ⟨fwBytes img fwHdrSize iccm, fwBytes img (fwHdrSize + iccm) dccm,
      if fwWord img 16 = 0 then none
      else some (addr.toNat, fwBytes img (fwHdrSize + iccm + dccm) (fwWord img 16).toNat)⟩
  else if b.itcmSize.toNat < img.length then
    ⟨fwBytes img 0 b.itcmSize.toNat,
      fwBytes img b.itcmSize.toNat (UInt32.ofNat (img.length - b.itcmSize.toNat)).toNat, none⟩
  else ⟨fwBytes img 0 (UInt32.ofNat img.length).toNat, [], none⟩

def FwPlan.ofCache (c : FwCache) : FwPlan :=
  let bytes s := fwBytes ((c.part s).getD []) 0 (c.hdr.len s).toNat
  ⟨bytes .iccm, bytes .dccm, if c.hdr.len .sram = 0 then none else some (c.hdr.sramAddr.toNat, bytes .sram)⟩

/-- The plan of the last image, or of what was saved before the call -/
def planOf (b : FwBuild) (cache : FwCache) (images : List (List UInt8)) : FwPlan :=
  match images.getLast? with
  | some img => .ofImage b img
  | none => .ofCache cache

/-- The sections are in the device: every byte written once, and the DCCM section up to its bound. -/
def FwLoaded (b : FwBuild) (plan : FwPlan) (writes : List FwWrite) : Prop :=
  ∃ wi wd ws, writes = wi ++ wd ++ ws ∧ FwWrittenAt b.itcmAddr wi plan.iccm ∧
    FwWrittenAt b.dtcmAddr wd (plan.dccm.take 0xa000) ∧
    match plan.sram with
    | none => ws = []
    | some p => FwWrittenAt p.1 ws p.2

/-- A call, with the firmware saved before it, returned or still under way -/
structure LoadSound (b : FwBuild) (cache : FwCache) (p : Option Int × LoadState) : Prop where
  reads : ∀ r ∈ p.2.reads, r.Within
  written : ∀ r, p.1 = some r → 0 ≤ r → FwLoaded b (planOf b cache p.2.images) p.2.writes
  released : ∀ k < p.2.images.length, (p.2.released ++ p.2.firmware.toList).count k = 1
  returned : p.1.isSome = true → p.2.firmware = none
  saves : ∀ part ∈ p.2.failedSaves, ∀ s, part s = none

def Retries (b : FwBuild) (e : LoadAttempt) (st : LoadState) : Prop :=
  ∃ r, (loadAttempt b e st).1 = some r ∧ r < 0 ∧ e.reset = true

/-- Every attempt that is made meets its condition. -/
def LoadOk (b : FwBuild) : List LoadAttempt → LoadState → Prop
  | [], _ => True
  | e :: es, st => AttemptOk b e st ∧ (Retries b e st → LoadOk b es { (loadAttempt b e st).2 with writes := [] })

/-- The sections are where `v` says, as the plan has them; an SRAM section that is not there need not be. -/
structure FwSource (plan : FwPlan) (hdr : FwHdr) (v : FwSection → FwView) : Prop where
  iccm : (v .iccm).data 0 (hdr.len .iccm).toNat = plan.iccm
  dccm : (v .dccm).data 0 (hdr.len .dccm).toNat = plan.dccm
  noSram : hdr.len .sram = 0 → plan.sram = none
  sram : hdr.len .sram ≠ 0 → (v .sram).Has (hdr.len .sram).toNat →
    plan.sram = some (hdr.sramAddr.toNat, (v .sram).data 0 (hdr.len .sram).toNat)

section
variable {b : FwBuild} {e : LoadAttempt} {st : LoadState} {img : List UInt8} {cache : FwCache}

theorem not_has_empty {n : UInt32} (h : n ≠ 0) : ¬(⟨[], 0⟩ : FwView).Has n.toNat := by
  intro hhas
  unfold FwView.Has at hhas
  have hle : 0 + n.toNat ≤ 0 := hhas
  exact h (UInt32.toNat_inj.mp (by show n.toNat = 0; omega))

theorem fileViews_image {s : FwSection} {off : Nat}
    (h : (fwOfFile b img st.images.length st.fw).2.ptr s = .image st.images.length off) :
    fileViews b img st s = ⟨img, off⟩ := by
  unfold fileViews
  rw [h]
  unfold LoadState.view imageRequested
  dsimp only
  congr 1
  rw [List.getD_append_right _ _ _ _ (Nat.le_refl _), Nat.sub_self]
  rfl

theorem fwOfFile_header {k : Nat} {fw : FwAltobeam} (hhead : fwHasHeader img = true) :
    (fwOfFile b img k fw).2.hdr.len = (fwHdrOf img).len ∧
      (fwOfFile b img k fw).2.ptr .iccm = .image k fwHdrSize ∧
      (fwOfFile b img k fw).2.ptr .dccm = .image k (fwHdrSize + (fwWord img 8).toNat) ∧
      (fwWord img 16 ≠ 0 →
        (fwOfFile b img k fw).2.ptr .sram = .image k (fwHdrSize + (fwWord img 8).toNat + (fwWord img 12).toNat) ∧
        (fwOfFile b img k fw).2.hdr.sramAddr =
          if b.bleCodeSram && fwWord img 0 == fwHdrFlag then b.bleSramAddr else fwWord img 20) := by
  unfold fwOfFile
  rw [if_pos hhead]
  dsimp only
  by_cases h0 : (fwHdrOf img).len .sram ≠ 0
  · rw [if_pos h0]
    exact ⟨rfl, rfl, rfl, fun _ => ⟨rfl, rfl⟩⟩
  · rw [if_neg h0]
    exact ⟨rfl, rfl, rfl, fun h => absurd h h0⟩

theorem fwOfFile_plain {k : Nat} {fw : FwAltobeam} (hhead : ¬fwHasHeader img = true)
    (hgood : (fwOfFile b img k fw).1 = true) :
    (fwOfFile b img k fw).2.ptr .iccm = .image k 0 ∧ (fwOfFile b img k fw).2.ptr .sram = fw.ptr .sram ∧
      (if b.itcmSize.toNat < img.length then
        (fwOfFile b img k fw).2.hdr.len .iccm = b.itcmSize ∧
          (fwOfFile b img k fw).2.hdr.len .dccm = UInt32.ofNat (img.length - b.itcmSize.toNat) ∧
          (fwOfFile b img k fw).2.ptr .dccm = .image k b.itcmSize.toNat
      else (fwOfFile b img k fw).2.hdr.len .iccm = UInt32.ofNat img.length ∧
        (fwOfFile b img k fw).2.hdr.len .dccm = 0) := by
  unfold fwOfFile at hgood ⊢
  rw [if_neg hhead] at hgood ⊢
  by_cases hlarge : b.itcmSize.toNat < img.length
  · rw [if_pos hlarge] at hgood ⊢
    dsimp only at hgood ⊢
    split
    · rename_i hover
      rw [if_pos hover] at hgood
      exact absurd hgood Bool.false_ne_true
    · exact ⟨rfl, rfl, rfl, rfl, rfl⟩
  · rw [if_neg hlarge, if_neg hlarge]
    exact ⟨rfl, rfl, rfl, rfl⟩

theorem fwOfFile_source (hwild : st.fw.ptr .sram = .wild) (hgood : (fwOfFile b img st.images.length st.fw).1 = true) :
    FwSource (.ofImage b img) (fwOfFile b img st.images.length st.fw).2.hdr (fileViews b img st) := by
  by_cases hhead : fwHasHeader img = true
  · obtain ⟨hlen, hi, hd, hs⟩ := @fwOfFile_header b img st.images.length st.fw hhead
    have hplan : FwPlan.ofImage b img = ⟨_, _, _⟩ := if_pos hhead
    rw [hplan]
    refine ⟨?_, ?_, fun h0 => ?_, fun h0 _ => ?_⟩
    · rw [fileViews_image hi, hlen]
      rfl
    · rw [fileViews_image hd, hlen]
      rfl
    · rw [hlen] at h0
      exact if_pos h0
    · rw [hlen] at h0 ⊢
      obtain ⟨hptr, haddr⟩ := hs h0
      rw [fileViews_image hptr, haddr]
      exact if_neg h0
  · obtain ⟨hi, hs, hsections⟩ := fwOfFile_plain hhead hgood
    have hnone : fileViews b img st .sram = ⟨[], 0⟩ := by
      unfold fileViews
      rw [hs, hwild]
      rfl
    have hplan : FwPlan.ofImage b img = if _ then _ else _ := if_neg hhead
    rw [hplan]
    by_cases hlarge : b.itcmSize.toNat < img.length
    · rw [if_pos hlarge] at hsections ⊢
      obtain ⟨hlenI, hlenD, hd⟩ := hsections
      refine ⟨?_, ?_, fun _ => rfl, fun h0 hhas => absurd (hnone ▸ hhas) (not_has_empty h0)⟩
      · rw [fileViews_image hi, hlenI]
        rfl
      · rw [fileViews_image hd, hlenD]
        rfl
    · rw [if_neg hlarge] at hsections ⊢
      obtain ⟨hlenI, hlenD⟩ := hsections
      refine ⟨?_, ?_, fun _ => rfl, fun h0 hhas => absurd (hnone ▸ hhas) (not_has_empty h0)⟩
      · rw [fileViews_image hi, hlenI]
        rfl
      · rw [hlenD]
        rfl

theorem data_of_copy (v : FwView) (n : Nat) : (⟨v.data 0 n, 0⟩ : FwView).data 0 n = v.data 0 n := by
  have hlen : (v.data 0 n).length = n := length_read _ _ _
  unfold FwView.data
  dsimp only
  apply List.ext_getElem
  · rw [length_read, length_read]
  · intro i hi hi'
    rw [getElem_read, Nat.zero_add]
    exact List.getD_eq_getElem _ _ hi'

theorem savedPtr_view {s : FwSection} {l : List UInt8} (h : st.cache.part s = some l) :
    st.view (savedPtr st.cache s) = ⟨l, 0⟩ := by
  unfold savedPtr
  rw [h]
  show (⟨(st.cache.part s).getD [], 0⟩ : FwView) = _
  rw [h]
  rfl

theorem savedViews_start (hwild : (b.bleCodeSram && b.comb) = false → st.fw.ptr .sram = .wild) :
    FwSource (.ofCache st.cache) st.cache.hdr (savedViews b st) := by
  have hview : ∀ s, st.view (savedPtr st.cache s) = ⟨(st.cache.part s).getD [], 0⟩ := by
    intro s
    cases h : st.cache.part s with
    | none =>
      unfold savedPtr
      rw [h]
      rfl
    | some l => exact savedPtr_view h
  have hdata : ∀ s, (st.view (savedPtr st.cache s)).data 0 (st.cache.hdr.len s).toNat =
      fwBytes ((st.cache.part s).getD []) 0 (st.cache.hdr.len s).toNat := by
    intro s
    rw [hview]
    rfl
  refine ⟨hdata .iccm, hdata .dccm, fun h0 => if_pos h0, fun h0 hhas => ?_⟩
  cases hble : b.bleCodeSram && b.comb with
  | false =>
    have hv : savedViews b st .sram = ⟨[], 0⟩ := by
      unfold savedViews atbmGetFw
      dsimp only
      rw [hble, if_neg Bool.false_ne_true, hwild hble]
      rfl
    rw [hv] at hhas
    exact absurd hhas (not_has_empty h0)
  | true =>
    have hv : savedViews b st .sram = st.view (savedPtr st.cache .sram) := by
      unfold savedViews atbmGetFw
      dsimp only
      rw [hble, if_pos rfl]
    rw [hv, hdata .sram]
    exact if_neg h0

theorem copied_source {plan : FwPlan} {hdr : FwHdr} {v : FwSection → FwView} {valloc : FwSection → Bool}
    (hsrc : FwSource plan hdr v) (hcopies : CopiesOk b hdr v valloc) (hdone : ¬SaveFails b hdr valloc)
    (hhdr : st.cache.hdr = hdr) (hptr : st.view (st.fw.ptr .sram) = v .sram)
    (hpart : ∀ s, s ≠ .sram ∨ (b.bleCodeSram && b.comb) = true → (hdr.len s).toNat ≠ 0 →
      st.cache.part s = some ((v s).data 0 (hdr.len s).toNat)) :
    FwSource plan st.cache.hdr (savedViews b st) := by
  have hdata : ∀ s, s ≠ .sram ∨ (b.bleCodeSram && b.comb) = true →
      (st.view (savedPtr st.cache s)).data 0 (hdr.len s).toNat = (v s).data 0 (hdr.len s).toNat := by
    intro s hs
    by_cases h0 : (hdr.len s).toNat = 0
    · rw [h0]
      rfl
    · rw [savedPtr_view (hpart s hs h0)]
      exact data_of_copy _ _
  rw [hhdr]
  refine ⟨(hdata .iccm (.inl FwSection.noConfusion)).trans hsrc.iccm,
    (hdata .dccm (.inl FwSection.noConfusion)).trans hsrc.dccm, hsrc.noSram, fun h0 hhas => ?_⟩
  cases hble : b.bleCodeSram && b.comb with
  | false =>
    have hv : savedViews b st .sram = v .sram := by
      unfold savedViews atbmGetFw
      dsimp only
      rw [hble, if_neg Bool.false_ne_true]
      exact hptr
    rw [hv] at hhas ⊢
    exact hsrc.sram h0 hhas
  | true =>
    have hv : savedViews b st .sram = st.view (savedPtr st.cache .sram) := by
      unfold savedViews atbmGetFw
      dsimp only
      rw [hble, if_pos rfl]
    unfold SaveFails at hdone
    rw [not_not] at hdone
    obtain ⟨hcI, hcD, hcS⟩ := hdone
    have h0' : (hdr.len .sram).toNat ≠ 0 := fun h => h0 (UInt32.toNat_inj.mp h)
    have hhas := hcopies.sram hcI hcD hble h0' ((hcS hble).resolve_left h0')
    rw [hv, hdata .sram (.inr hble)]
    exact hsrc.sram h0 hhas

theorem parts_loaded {plan : FwPlan} {hdr : FwHdr} {v : FwSection → FwView} {p : Option Int × LoadState}
    (hpost : PartsPost b e hdr v st p) (hsrc : FwSource plan hdr v) (hwrites : st.writes = [])
    (hsends : SendsOk b e hdr v) (hwent : Went p) : FwLoaded b plan p.2.writes := by
  obtain ⟨hdone, wi, wd, ws, heq, hi, hd, hnone, hsome⟩ := hpost.written hwent
  rw [hwrites, List.nil_append] at heq
  have hdccm : (v .dccm).data 0 (hdr.sendLen .dccm) = plan.dccm.take 0xa000 := by
    rw [← hsrc.dccm]
    unfold FwView.data FwHdr.sendLen
    rcases Nat.le_total (hdr.len .dccm).toNat 0xa000 with hle | hge
    · rw [Nat.min_eq_left hle, List.take_of_length_le (by rw [length_read]; exact hle)]
    · rw [Nat.min_eq_right hge, take_read hge]
  have hiccm : (v .iccm).data 0 (hdr.sendLen .iccm) = plan.iccm := hsrc.iccm
  rw [hiccm] at hi
  rw [hdccm] at hd
  refine ⟨wi, wd, ws, heq, hi, hd, ?_⟩
  by_cases h0 : hdr.len .sram = 0
  · rw [hsrc.noSram h0]
    exact hnone h0
  · obtain ⟨hI, hD, hS⟩ := hdone h0
    have h0' : 0 < hdr.sendLen .sram := Nat.pos_of_ne_zero fun h => h0 (UInt32.toNat_inj.mp h)
    have hsent := fwSent_done hS
    have hhas := hsends.sram hI hD (by rw [hsent]; exact h0')
    rw [hsent] at hhas
    rw [hsrc.sram h0 hhas]
    exact hsome h0

structure LoadInv (b : FwBuild) (cache : FwCache) (st : LoadState) : Prop where
  shape : LoadShape st
  source : st.cache.ready = true → FwSource (planOf b cache st.images) st.cache.hdr (savedViews b st)
  fresh : st.cache.ready = false → st.firmware = none → st.fw.ptr .sram = .wild
  writes : st.writes = []

theorem start_inv (b : FwBuild) (cache : FwCache) (hdr : FwHdr) : LoadInv b cache (.start cache hdr) := by
  refine ⟨⟨?_, ?_⟩, fun _ => @savedViews_start b (.start cache hdr) fun _ => rfl, fun _ _ => rfl, rfl⟩
  · intro k h
    cases h
  · intro _ s t
    exact FwPtr.noConfusion

theorem planOf_append (images : List (List UInt8)) : planOf b cache (images ++ [img]) = .ofImage b img := by
  unfold planOf
  rw [List.getLast?_concat]

theorem imageRequested_firmware (k : Nat) (h : (imageRequested b img st).firmware = some k) :
    k < (imageRequested b img st).images.length := by
  cases h
  unfold imageRequested
  dsimp only
  rw [List.length_append]
  exact Nat.lt_succ_self _

theorem loadAttempt_shape (hshape : LoadShape st) :
    LoadShape { (loadAttempt b e st).2 with writes := [] } ∧ (loadAttempt b e st).2.released = st.released := by
  have hpost := @loadAttempt_post b e st hshape
  generalize loadAttempt b e st = p at hpost
  cases hpost with
  | saved ret hdr reads writes ready post =>
    exact ⟨⟨hshape.firmware, fun h => absurd (ready.symm.trans h) Bool.noConfusion⟩, rfl⟩
  | refused n ready request => exact ⟨⟨fun k h => (by cases h), hshape.ptr⟩, rfl⟩
  | large img ready request bad =>
    exact ⟨⟨@imageRequested_firmware b st img, fun _ => fwOfFile_ptr (hshape.ptr ready)⟩, rfl⟩
  | image img set ret hdr reads writes ready request good copied post =>
    have hptr := @fwOfFile_ptr b img st.images.length st.fw (hshape.ptr ready)
    rw [copied.frame]
    exact ⟨⟨@imageRequested_firmware b st img, fun _ => hptr⟩, rfl⟩

theorem loadAttempt_inv (h : LoadInv b cache st) (hok : AttemptOk b e st) :
    LoadInv b cache { (loadAttempt b e st).2 with writes := [] } ∧
      (Went (loadAttempt b e st) →
        FwLoaded b (planOf b cache (loadAttempt b e st).2.images) (loadAttempt b e st).2.writes) := by
  have hshape := (@loadAttempt_shape b e st h.shape).1
  have hpost := @loadAttempt_post b e st h.shape
  generalize loadAttempt b e st = p at hpost hshape
  cases hpost with
  | saved ret hdr reads writes ready post =>
    refine ⟨⟨hshape, ?_, fun hnot => absurd (ready.symm.trans hnot) Bool.noConfusion, rfl⟩,
      parts_loaded post (h.source ready) h.writes (hok.saved ready)⟩
    intro _
    have hviews : savedViews b { st with
        fw := ⟨hdr, (atbmGetFw b st.cache st.fw).ptr⟩, reads := reads, writes := [] } = savedViews b st := by
      funext s
      unfold savedViews atbmGetFw
      cases s with
      | iccm => rfl
      | dccm => rfl
      | sram =>
        dsimp only
        cases b.bleCodeSram && b.comb <;> rfl
    dsimp only
    rw [hviews]
    exact h.source ready
  | refused n ready request =>
    refine ⟨⟨hshape, fun hr => absurd (ready.symm.trans hr) Bool.noConfusion,
      fun _ _ => h.fresh ready (hok.alone ready), rfl⟩, ?_⟩
    rintro ⟨r, hr, hret⟩
    cases hret
    omega
  | large img ready request bad =>
    refine ⟨⟨hshape, fun hr => absurd (ready.symm.trans hr) Bool.noConfusion, fun _ hf => (by cases hf), rfl⟩, ?_⟩
    rintro ⟨r, hr, hret⟩
    cases hret
    omega
  | image img set ret hdr reads writes ready request good copied post =>
    have hfile := hok.file ready img request
    have hsrc := @fwOfFile_source b st img (h.fresh ready (hok.alone ready)) good
    have hfw : set.fw = (fwOfFile b img st.images.length st.fw).2 := by
      rw [copied.frame]
      rfl
    have hfirm : set.firmware = some st.images.length := by
      rw [copied.frame]
      rfl
    have hplan : planOf b cache set.images = .ofImage b img := by
      rw [copied.frame]
      exact planOf_append st.images
    have hview : set.view (set.fw.ptr .sram) = fileViews b img st .sram := by
      rw [copied.frame]
      exact view_congr rfl (@fwOfFile_ptr b img st.images.length st.fw (h.shape.ptr ready) .sram)
    dsimp only
    rw [hplan]
    refine ⟨⟨hshape, ?_, ?_, rfl⟩, parts_loaded post hsrc (by rw [copied.frame]; exact h.writes) (hfile.sends good)⟩
    · intro hr
      obtain ⟨hsaved, hdone, hhdr, hpart⟩ := copied.copied hr
      dsimp only
      rw [hplan]
      exact copied_source hsrc (hfile.copies good hsaved) hdone hhdr hview hpart
    · intro _ hf
      rw [hfirm] at hf
      cases hf

end

section
variable {b : FwBuild} {cache : FwCache} {st : LoadState}

theorem count_toList {o : Option Nat} {k : Nat} : (o.toList).count k = 1 ↔ o = some k := by
  cases o with
  | none => exact iff_of_false Nat.zero_ne_one (fun h => by cases h)
  | some i =>
    show [i].count k = 1 ↔ _
    by_cases h : i = k
    · subst h
      exact iff_of_true List.count_singleton_self rfl
    · rw [List.count_singleton, if_neg (by simpa using h)]
      exact iff_of_false (by decide) fun h' => h (Option.some.inj h')

structure CallSafe (p : Option Int × LoadState) : Prop where
  reads : ∀ r ∈ p.2.reads, r.Within
  released : ∀ k < p.2.images.length, (p.2.released ++ p.2.firmware.toList).count k = 1
  saves : ∀ part ∈ p.2.failedSaves, ∀ s, part s = none

theorem callSafe_running {ret : Option Int} (hrel : st.released = []) : CallSafe (ret, st) ↔ LoadSafe st := by
  constructor
  · rintro ⟨hreads, hreleased, hsaves⟩
    refine ⟨hreads, fun k hk => ?_, hsaves⟩
    have hcount := hreleased k hk
    dsimp only at hcount
    rw [hrel, List.nil_append] at hcount
    exact count_toList.mp hcount
  · rintro ⟨hreads, hheld, hsaves⟩
    refine ⟨hreads, fun k hk => ?_, hsaves⟩
    dsimp only
    rw [hrel, List.nil_append]
    exact count_toList.mpr (hheld k hk)

theorem callSafe_returned {ret : Option Int} (hrel : st.released = []) :
    CallSafe (ret, releaseFirmware st) ↔ LoadSafe st := by
  rw [← @callSafe_running st ret hrel]
  have hcount : ∀ k, ((releaseFirmware st).released ++ (releaseFirmware st).firmware.toList).count k =
      (st.released ++ st.firmware.toList).count k := by
    intro k
    show ((st.released ++ st.firmware.toList) ++ []).count k = _
    rw [List.append_nil]
  constructor
  · exact fun h => ⟨h.reads, fun k hk => (hcount k).symm.trans (h.released k hk), h.saves⟩
  · exact fun h => ⟨h.reads, fun k hk => (hcount k).trans (h.released k hk), h.saves⟩

variable {e : LoadAttempt} {es : List LoadAttempt}

theorem startLoad_running (h : (loadAttempt b e st).1 = none) :
    atbmStartLoadFirmware b (e :: es) st = loadAttempt b e st := by
  unfold atbmStartLoadFirmware
  dsimp only
  rw [h]

theorem startLoad_again (h : Retries b e st) :
    atbmStartLoadFirmware b (e :: es) st = atbmStartLoadFirmware b es { (loadAttempt b e st).2 with writes := [] } := by
  obtain ⟨r, hret, hr⟩ := h
  rw [atbmStartLoadFirmware]
  dsimp only
  rw [hret]
  exact if_pos hr

theorem startLoad_end {ret : Int} (h : (loadAttempt b e st).1 = some ret) (hno : ¬Retries b e st) :
    atbmStartLoadFirmware b (e :: es) st = (some ret, releaseFirmware (loadAttempt b e st).2) := by
  have hr : ¬(ret < 0 ∧ e.reset = true) := fun hr => hno ⟨ret, h, hr⟩
  rw [atbmStartLoadFirmware]
  dsimp only
  rw [h]
  exact if_neg hr

theorem attempt_cases (b : FwBuild) (e : LoadAttempt) (st : LoadState) :
    ((loadAttempt b e st).1 = none ∧ ¬Retries b e st) ∨ Retries b e st ∨
      ∃ ret, (loadAttempt b e st).1 = some ret ∧ ¬Retries b e st := by
  by_cases h : Retries b e st
  · exact .inr (.inl h)
  · cases hret : (loadAttempt b e st).1 with
    | none => exact .inl ⟨rfl, h⟩
    | some ret => exact .inr (.inr ⟨ret, rfl, h⟩)

theorem startLoad_safe (es : List LoadAttempt) (hshape : LoadShape st) (hrel : st.released = []) :
    CallSafe (atbmStartLoadFirmware b es st) ↔ LoadSafe st ∧ LoadOk b es st := by
  induction es generalizing st with
  | nil => exact (callSafe_running hrel).trans ⟨fun h => ⟨h, trivial⟩, fun h => h.1⟩
  | cons e es ih =>
    obtain ⟨hshape', hrel'⟩ := @loadAttempt_shape b e st hshape
    rw [hrel] at hrel'
    unfold LoadOk
    rw [← and_assoc, ← loadAttempt_safe hshape]
    rcases attempt_cases b e st with ⟨hret, hno⟩ | hagain | ⟨ret, hret, hno⟩
    · rw [startLoad_running hret]
      exact (callSafe_running hrel').trans ⟨fun h => ⟨h, fun hr => absurd hr hno⟩, fun h => h.1⟩
    · rw [startLoad_again hagain, ih hshape' hrel']
      constructor
      · exact fun h => ⟨⟨h.1.reads, h.1.held, h.1.saves⟩, fun _ => h.2⟩
      · exact fun h => ⟨⟨h.1.reads, h.1.held, h.1.saves⟩, h.2 hagain⟩
    · rw [startLoad_end hret hno, callSafe_returned hrel']
      exact ⟨fun h => ⟨h, fun hr => absurd hr hno⟩, fun h => h.1⟩

theorem startLoad_written (es : List LoadAttempt) (hinv : LoadInv b cache st) (hok : LoadOk b es st) (r : Int)
    (hr : 0 ≤ r) (hret : (atbmStartLoadFirmware b es st).1 = some r) :
    FwLoaded b (planOf b cache (atbmStartLoadFirmware b es st).2.images) (atbmStartLoadFirmware b es st).2.writes := by
  induction es generalizing st with
  | nil => cases hret
  | cons e es ih =>
    obtain ⟨hattempt, hrest⟩ := hok
    obtain ⟨hinv', hloaded⟩ := loadAttempt_inv hinv hattempt
    rcases attempt_cases b e st with ⟨hret', hno⟩ | hagain | ⟨ret, hret', hno⟩
    · rw [startLoad_running hret', hret'] at hret
      cases hret
    · rw [startLoad_again hagain] at hret ⊢
      exact ih hinv' (hrest hagain) hret
    · rw [startLoad_end hret' hno] at hret ⊢
      cases hret
      exact hloaded ⟨r, hr, hret'⟩

theorem startLoad_returned (es : List LoadAttempt) (h : (atbmStartLoadFirmware b es st).1.isSome = true) :
    (atbmStartLoadFirmware b es st).2.firmware = none := by
  induction es generalizing st with
  | nil => cases h
  | cons e es ih =>
    rcases attempt_cases b e st with ⟨hret, hno⟩ | hagain | ⟨ret, hret, hno⟩
    · rw [startLoad_running hret, hret] at h
      cases h
    · rw [startLoad_again hagain] at h ⊢
      exact ih h
    · rw [startLoad_end hret hno]
      rfl

end

def sdioBuild : FwBuild where
  blockSize := 128
  itcmSize := 160 * 1024
  dtcmSize := 48 * 1024
  itcmAddr := 0x10000
  dtcmAddr := 0x800000
  bleSramAddr := 0x09018000
  savedFw := false
  bleCodeSram := false
  comb := false
  blockSize_pos := by decide
  blockSize_dvd := by decide

def headerOnly : List UInt8 := [0x77, 0x36, 0x35, 0x34, 0, 0, 0, 0, 1] ++ List.replicate 23 0

def goodAttempt : LoadAttempt where
  request := .ok headerOnly
  valloc _ := true
  kalloc _ := true
  writes _ := [0]
  reset := false

def emptyHdr : FwHdr := ⟨fun _ => 0, 0⟩

end AtbmWifi
