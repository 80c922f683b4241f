import AtbmWifi.Lib.Memory

/-!
# Download of a section

`atbm_load_firmware_generic` hands a section to the bus block by block.  `answers` are the
values of the writes so far; where they end the call is still at a write.  `put` is a u32.
`loadLoop_reads` says how far the section is read, `loadLoop_done` when it is sent, and
`loadLoop_written` that it is then written as a whole.
-/

namespace AtbmWifi

open Memory

/-- The build: the constants of the bus, and what is compiled in or set. -/
structure FwBuild where
  /-- `DOWNLOAD_BLOCK_SIZE` -/
  blockSize : Nat
  itcmSize : UInt32
  dtcmSize : Nat
  itcmAddr : Nat
  dtcmAddr : Nat
  /-- `DOWNLOAD_BLE_SRAM_ADDR` -/
  bleSramAddr : UInt32
  /-- `ATBM_USE_SAVED_FW` -/
  savedFw : Bool
  /-- `CONFIG_ATBM_BLE_CODE_SRAM` -/
  bleCodeSram : Bool
  /-- `atbm_wifi_bt_comb_get() == 1` -/
  comb : Bool
  blockSize_pos : 0 < blockSize
  blockSize_dvd : blockSize ∣ 2 ^ 32

/-- What a pointer points to: the bytes of its object, and where in them -/
structure FwView where
  bytes : List UInt8
  off : Nat

/-- A read of `len` bytes at `off` of an object of `extent` bytes -/
structure FwRead where
  off : Nat
  len : Nat
  extent : Nat
  deriving DecidableEq, Repr

structure FwWrite where
  addr : Nat
  data : List UInt8
  deriving DecidableEq, Repr

def FwRead.Within (r : FwRead) : Prop := r.off + r.len ≤ r.extent

instance (r : FwRead) : Decidable r.Within := inferInstanceAs (Decidable (_ ≤ _))

namespace FwView

def read (v : FwView) (put n : Nat) : FwRead := ⟨v.off + put, n, v.bytes.length⟩

def data (v : FwView) (put n : Nat) : List UInt8 := Memory.read (fun i => v.bytes.getD i 0) (v.off + put) n

/-- The first `n` bytes are there. -/
def Has (v : FwView) (n : Nat) : Prop := v.off + n ≤ v.bytes.length

instance (v : FwView) (n : Nat) : Decidable (v.Has n) := inferInstanceAs (Decidable (_ ≤ _))

theorem Has.mono {v : FwView} {m n : Nat} (h : v.Has n) (hm : m ≤ n) : v.Has m := by
  unfold Has at *
  omega

end FwView

/-- The returned value, unless a write is still under way, and what was read and written. -/
structure FwDownload where
  ret : Option Int
  reads : List FwRead
  writes : List FwWrite

/-- The loop of `atbm_load_firmware_generic` -/
def loadLoop (b : FwBuild) (v : FwView) (size addr : Nat) : Nat → Int → List Int → FwDownload
  | put, ret, [] => ⟨if put < size then none else some ret, [], []⟩
  | put, ret, r :: answers =>
    if put < size then
      let txSize := min (size - put) b.blockSize
      let rest := if r < 0 then ⟨some r, [], []⟩ else loadLoop b v size addr ((put + b.blockSize) % 2 ^ 32) r answers
      ⟨rest.ret, v.read put txSize :: rest.reads, ⟨(put + addr) % 2 ^ 32, v.data put txSize⟩ :: rest.writes⟩
    else ⟨some ret, [], []⟩

/-- `atbm_load_firmware_generic`; `alloc` says whether there is memory for `buf`. -/
def atbmLoadFirmwareGeneric (b : FwBuild) (alloc : Bool) (answers : List Int) (v : FwView) (size addr : Nat) :
    FwDownload :=
  if alloc then loadLoop b v size addr 0 0 answers else ⟨some (-12), [], []⟩

def tried : List Int → Nat
  | [] => 0
  | r :: answers => if r < 0 then 1 else tried answers + 1

/-- The bytes of a section of `size` bytes that are read -/
def fwSent (b : FwBuild) (alloc : Bool) (answers : List Int) (size : Nat) : Nat :=
  if alloc then min size (b.blockSize * tried answers) else 0

def blocksOf (b : FwBuild) (size : Nat) : Nat := (size + (b.blockSize - 1)) / b.blockSize

structure FwDone (b : FwBuild) (alloc : Bool) (answers : List Int) (size : Nat) : Prop where
  alloc : alloc = true
  enough : blocksOf b size ≤ answers.length
  good : ∀ a ∈ answers.take (blocksOf b size), 0 ≤ a
  /-- `put` comes to the end of the section before it is 0 again. -/
  fits : 0 < size → size + b.blockSize ≤ 2 ^ 32

/-- The writes carry the bytes `data`, each once and in order, to `addr` and the places after it. -/
def FwWrittenAt (addr : Nat) : List FwWrite → List UInt8 → Prop
  | [], data => data = []
  | w :: ws, data => w.addr = addr % 2 ^ 32 ∧ w.data ≠ [] ∧
      ∃ rest, data = w.data ++ rest ∧ FwWrittenAt (addr + w.data.length) ws rest

section
variable {b : FwBuild} {v : FwView} {size addr put : Nat} {ret r : Int} {answers : List Int}

theorem tried_pos (h : answers ≠ []) : 0 < tried answers := by
  cases answers with
  | nil => exact absurd rfl h
  | cons r answers =>
    unfold tried
    split <;> omega

theorem loadLoop_past (h : size ≤ put) : loadLoop b v size addr put ret answers = ⟨some ret, [], []⟩ := by
  have hnot : ¬put < size := by omega
  cases answers with
  | nil =>
    unfold loadLoop
    rw [if_neg hnot]
  | cons r answers =>
    unfold loadLoop
    rw [if_neg hnot]

theorem loadLoop_cons (h : put < size) : loadLoop b v size addr put ret (r :: answers) =
    let rest := if r < 0 then ⟨some r, [], []⟩ else loadLoop b v size addr ((put + b.blockSize) % 2 ^ 32) r answers
    ⟨rest.ret, v.read put (min (size - put) b.blockSize) :: rest.reads,
      ⟨(put + addr) % 2 ^ 32, v.data put (min (size - put) b.blockSize)⟩ :: rest.writes⟩ := by
  rw [loadLoop, if_pos h]

theorem nextPut (hdvd : b.blockSize ∣ put) (hput : put < 2 ^ 32) :
    b.blockSize ∣ (put + b.blockSize) % 2 ^ 32 ∧
      ((put + b.blockSize) % 2 ^ 32 = put + b.blockSize ∨
        (put + b.blockSize) % 2 ^ 32 = 0 ∧ put + b.blockSize = 2 ^ 32) := by
  have hsum : b.blockSize ∣ put + b.blockSize := Nat.dvd_add hdvd (Nat.dvd_refl _)
  refine ⟨(Nat.dvd_mod_iff b.blockSize_dvd).mpr hsum, ?_⟩
  have hle : put + b.blockSize ≤ 2 ^ 32 := by
    obtain ⟨i, rfl⟩ := hdvd
    obtain ⟨j, hj⟩ := b.blockSize_dvd
    rw [hj] at hput ⊢
    have hij := Nat.lt_of_mul_lt_mul_left hput
    calc b.blockSize * i + b.blockSize = b.blockSize * (i + 1) := by rw [Nat.mul_add, Nat.mul_one]
      _ ≤ b.blockSize * j := Nat.mul_le_mul_left _ hij
  rcases Nat.lt_or_ge (put + b.blockSize) (2 ^ 32) with hlt | hge
  · exact .inl (Nat.mod_eq_of_lt hlt)
  · have heq : put + b.blockSize = 2 ^ 32 := by omega
    rw [heq]
    exact .inr ⟨Nat.mod_self _, rfl⟩

theorem loadLoop_reads (hsize : size < 2 ^ 32) (hdvd : b.blockSize ∣ put) (hput : put < 2 ^ 32) :
    (∀ r ∈ (loadLoop b v size addr put ret answers).reads, r.Within) ↔
      (put < size → answers ≠ [] → v.Has (min size (put + b.blockSize * tried answers))) := by
  have hpos := b.blockSize_pos
  induction answers generalizing put ret with
  | nil => exact iff_of_true (fun _ h => (List.not_mem_nil h).elim) fun _ h => absurd rfl h
  | cons r answers ih =>
    rcases Nat.lt_or_ge put size with hlt | hge
    · have hread : (v.read put (min (size - put) b.blockSize)).Within ↔ v.Has (min size (put + b.blockSize)) := by
        unfold FwRead.Within FwView.read FwView.Has
        dsimp only
        omega
      rw [loadLoop_cons hlt]
      dsimp only
      rw [List.forall_mem_cons, hread]
      unfold tried
      by_cases hneg : r < 0
      · rw [if_pos hneg, if_pos hneg, Nat.mul_one]
        exact ⟨fun h _ _ => h.1, fun h => ⟨h hlt (List.cons_ne_nil _ _), fun _ h => (List.not_mem_nil h).elim⟩⟩
      · rw [if_neg hneg, if_neg hneg]
        obtain ⟨hdvd', hnext⟩ := nextPut hdvd hput
        have hih := @ih ((put + b.blockSize) % 2 ^ 32) r hdvd' (Nat.mod_lt _ (by decide))
        rw [Nat.mul_add, Nat.mul_one]
        constructor
        · rintro ⟨hfirst, hreads⟩ _ _
          have hrest := hih.mp hreads
          rcases hnext with heq | ⟨_, hwrap⟩
          · rw [heq] at hrest
            by_cases hmore : put + b.blockSize < size ∧ answers ≠ []
            · refine (hrest hmore.1 hmore.2).mono ?_
              omega
            · rcases not_and_or.mp hmore with hend | hnil
              · refine hfirst.mono ?_
                omega
              · rw [not_not] at hnil
                subst hnil
                refine hfirst.mono ?_
                show min size (put + (b.blockSize * 0 + b.blockSize)) ≤ _
                omega
          · refine hfirst.mono ?_
            omega
        · intro h
          have hall := h hlt (List.cons_ne_nil _ _)
          refine ⟨hall.mono (by omega), hih.mpr ?_⟩
          intro _ hne
          rcases hnext with heq | ⟨_, hwrap⟩
          · rw [heq]
            exact hall.mono (by omega)
          · exact hall.mono (by omega)
    · rw [loadLoop_past hge]
      exact iff_of_true (fun _ h => (List.not_mem_nil h).elim) fun h => absurd h (by omega)

theorem loadLoop_endless (hlarge : 2 ^ 32 < size + b.blockSize) (hdvd : b.blockSize ∣ put) (hput : put < 2 ^ 32)
    (hret : (loadLoop b v size addr put ret answers).ret = some r) : r < 0 := by
  induction answers generalizing put ret with
  | nil =>
    have hlt : put < size := by
      have := (nextPut hdvd hput).2
      have := Nat.mod_lt (put + b.blockSize) (show 0 < 2 ^ 32 by decide)
      omega
    unfold loadLoop at hret
    rw [if_pos hlt] at hret
    cases hret
  | cons a answers ih =>
    have hlt : put < size := by
      have := (nextPut hdvd hput).2
      have := Nat.mod_lt (put + b.blockSize) (show 0 < 2 ^ 32 by decide)
      omega
    rw [loadLoop_cons hlt] at hret
    dsimp only at hret
    by_cases hneg : a < 0
    · rw [if_pos hneg] at hret
      cases hret
      exact hneg
    · rw [if_neg hneg] at hret
      exact ih (nextPut hdvd hput).1 (Nat.mod_lt _ (by decide)) hret

theorem blocksOf_pos (h : put < size) : blocksOf b (size - put) = blocksOf b (size - (put + b.blockSize)) + 1 := by
  have hpos := b.blockSize_pos
  unfold blocksOf
  rcases Nat.lt_or_ge (put + b.blockSize) size with hlt | hge
  · have hsplit : size - put + (b.blockSize - 1) = size - (put + b.blockSize) + (b.blockSize - 1) + b.blockSize := by omega
    rw [hsplit, Nat.add_div_right _ hpos]
  · have hzero : size - (put + b.blockSize) = 0 := by omega
    rw [hzero, Nat.zero_add, Nat.div_eq_of_lt (by omega : b.blockSize - 1 < b.blockSize)]
    apply Nat.div_eq_of_lt_le
    · omega
    · omega

theorem loadLoop_done (hfits : put < size → size + b.blockSize ≤ 2 ^ 32) (hret : 0 ≤ ret) :
    (∃ r, 0 ≤ r ∧ (loadLoop b v size addr put ret answers).ret = some r) ↔
      blocksOf b (size - put) ≤ answers.length ∧ ∀ a ∈ answers.take (blocksOf b (size - put)), 0 ≤ a := by
  induction answers generalizing put ret with
  | nil =>
    unfold loadLoop
    rcases Nat.lt_or_ge put size with hlt | hge
    · rw [if_pos hlt, blocksOf_pos hlt]
      refine iff_of_false ?_ fun h => absurd h.1 (Nat.not_succ_le_zero _)
      rintro ⟨r, _, h⟩
      cases h
    · rw [if_neg (by omega), Nat.sub_eq_zero_of_le hge]
      have hzero : blocksOf b 0 = 0 := by
        have hpos := b.blockSize_pos
        exact Nat.div_eq_of_lt (by omega)
      rw [hzero]
      exact iff_of_true ⟨ret, hret, rfl⟩ ⟨Nat.le_refl _, fun _ h => (List.not_mem_nil h).elim⟩
  | cons a answers ih =>
    rcases Nat.lt_or_ge put size with hlt | hge
    · rw [loadLoop_cons hlt, blocksOf_pos hlt, List.length_cons, List.take_succ_cons, List.forall_mem_cons]
      dsimp only
      by_cases hneg : a < 0
      · rw [if_pos hneg]
        refine iff_of_false ?_ fun h => absurd h.2.1 (by omega)
        rintro ⟨r, hr, h⟩
        cases h
        omega
      · have hnext : (put + b.blockSize) % 2 ^ 32 = put + b.blockSize :=
          Nat.mod_eq_of_lt (by have := hfits hlt; omega)
        rw [if_neg hneg, hnext, ih (fun h => hfits (by omega)) (by omega)]
        have hsucc := @Nat.add_le_add_iff_right (blocksOf b (size - (put + b.blockSize))) answers.length 1
        rw [hsucc]
        exact ⟨fun h => ⟨h.1, by omega, h.2⟩, fun h => ⟨h.1, h.2.2⟩⟩
    · rw [loadLoop_past hge, Nat.sub_eq_zero_of_le hge]
      have hzero : blocksOf b 0 = 0 := by
        have hpos := b.blockSize_pos
        exact Nat.div_eq_of_lt (by omega)
      rw [hzero]
      exact iff_of_true ⟨ret, hret, rfl⟩ ⟨Nat.zero_le _, fun _ h => (List.not_mem_nil h).elim⟩

theorem loadLoop_written (hfits : put < size → size + b.blockSize ≤ 2 ^ 32) (hr : 0 ≤ r)
    (hret : (loadLoop b v size addr put ret answers).ret = some r) :
    FwWrittenAt (put + addr) (loadLoop b v size addr put ret answers).writes (v.data put (size - put)) := by
  have hpos := b.blockSize_pos
  induction answers generalizing put ret with
  | nil =>
    unfold loadLoop at hret ⊢
    by_cases hlt : put < size
    · rw [if_pos hlt] at hret
      cases hret
    · show v.data put (size - put) = []
      rw [Nat.sub_eq_zero_of_le (by omega)]
      rfl
  | cons a answers ih =>
    rcases Nat.lt_or_ge put size with hlt | hge
    · rw [loadLoop_cons hlt] at hret ⊢
      dsimp only at hret ⊢
      have hlen : (v.data put (min (size - put) b.blockSize)).length = min (size - put) b.blockSize := length_read _ _ _
      by_cases hneg : a < 0
      · rw [if_pos hneg] at hret
        cases hret
        omega
      · have hnext : (put + b.blockSize) % 2 ^ 32 = put + b.blockSize :=
          Nat.mod_eq_of_lt (by have := hfits hlt; omega)
        rw [if_neg hneg, hnext] at hret ⊢
        have hrest := ih (fun h => hfits (by omega)) hret
        refine ⟨rfl, ?_, v.data (put + min (size - put) b.blockSize) (size - put - min (size - put) b.blockSize), ?_, ?_⟩
        · intro h0
          have hnil : (v.data put (min (size - put) b.blockSize)).length = 0 := congrArg List.length h0
          omega
        · have hsplit : size - put = min (size - put) b.blockSize + (size - put - min (size - put) b.blockSize) := by omega
          unfold FwView.data
          rw [← Nat.add_assoc, ← read_add, ← hsplit]
        · dsimp only
          rw [hlen]
          rcases Nat.lt_or_ge (put + b.blockSize) size with hmore | hend
          · have hmin : min (size - put) b.blockSize = b.blockSize := by omega
            have hleft : size - put - b.blockSize = size - (put + b.blockSize) := by omega
            have haddr : put + addr + b.blockSize = put + b.blockSize + addr := by omega
            rw [hmin, hleft, haddr]
            exact hrest
          · have hnone : size - put - min (size - put) b.blockSize = 0 := by omega
            rw [loadLoop_past hend, hnone]
            rfl
    · rw [loadLoop_past hge, Nat.sub_eq_zero_of_le hge]
      rfl

theorem loadGeneric_reads (hsize : size < 2 ^ 32) (alloc : Bool) :
    (∀ r ∈ (atbmLoadFirmwareGeneric b alloc answers v size addr).reads, r.Within) ↔
      (0 < fwSent b alloc answers size → v.Has (fwSent b alloc answers size)) := by
  unfold atbmLoadFirmwareGeneric fwSent
  cases alloc with
  | false => exact iff_of_true (fun _ h => (List.not_mem_nil h).elim) fun h => absurd h (Nat.lt_irrefl 0)
  | true =>
    rw [if_pos rfl, if_pos rfl, loadLoop_reads hsize (Nat.dvd_zero _) (by decide), Nat.zero_add]
    have hpos := b.blockSize_pos
    constructor
    · intro h hsent
      refine h (by omega) ?_
      rintro rfl
      have : b.blockSize * tried [] = 0 := rfl
      omega
    · intro h hlt hne
      have := Nat.mul_pos hpos (tried_pos hne)
      exact h (by omega)

theorem loadGeneric_done (alloc : Bool) :
    (∃ r, 0 ≤ r ∧ (atbmLoadFirmwareGeneric b alloc answers v size addr).ret = some r) ↔ FwDone b alloc answers size := by
  unfold atbmLoadFirmwareGeneric
  cases alloc with
  | false =>
    refine iff_of_false ?_ fun h => Bool.false_ne_true h.alloc
    rintro ⟨r, hr, h⟩
    rw [if_neg Bool.false_ne_true] at h
    cases h
    omega
  | true =>
    rw [if_pos rfl]
    constructor
    · rintro ⟨r, hr, h⟩
      have hfits : 0 < size → size + b.blockSize ≤ 2 ^ 32 := by
        intro _
        rcases Nat.lt_or_ge (2 ^ 32) (size + b.blockSize) with hlarge | hfits
        · have := loadLoop_endless hlarge (Nat.dvd_zero _) (by decide) h
          omega
        · exact hfits
      obtain ⟨henough, hgood⟩ := (loadLoop_done hfits (Int.le_refl 0)).mp ⟨r, hr, h⟩
      exact ⟨rfl, henough, hgood, hfits⟩
    · intro h
      exact (loadLoop_done h.fits (Int.le_refl 0)).mpr ⟨h.enough, h.good⟩

theorem loadGeneric_written {alloc : Bool} (hdone : FwDone b alloc answers size) (hr : 0 ≤ r)
    (hret : (atbmLoadFirmwareGeneric b alloc answers v size addr).ret = some r) :
    FwWrittenAt addr (atbmLoadFirmwareGeneric b alloc answers v size addr).writes (v.data 0 size) := by
  unfold atbmLoadFirmwareGeneric at hret ⊢
  rw [if_pos hdone.alloc] at hret ⊢
  have h := loadLoop_written hdone.fits hr hret
  rwa [Nat.zero_add] at h

theorem fwSent_done {alloc : Bool} (h : FwDone b alloc answers size) : fwSent b alloc answers size = size := by
  have hpos := b.blockSize_pos
  unfold fwSent
  rw [if_pos h.alloc]
  have htried : ∀ (n : Nat) (l : List Int), n ≤ l.length → (∀ a ∈ l.take n, 0 ≤ a) → n ≤ tried l := by
    intro n
    induction n with
    | zero => exact fun _ _ _ => Nat.zero_le _
    | succ n ih =>
      intro l hl hgood
      cases l with
      | nil => exact absurd hl (Nat.not_succ_le_zero _)
      | cons a l =>
        rw [List.take_succ_cons, List.forall_mem_cons] at hgood
        unfold tried
        rw [if_neg (by omega)]
        exact Nat.succ_le_succ (ih l (Nat.le_of_succ_le_succ hl) hgood.2)
  have hle : size ≤ b.blockSize * blocksOf b size := by
    unfold blocksOf
    have := Nat.div_add_mod (size + (b.blockSize - 1)) b.blockSize
    have := Nat.mod_lt (size + (b.blockSize - 1)) hpos
    omega
  have := Nat.mul_le_mul_left b.blockSize (htried _ _ h.enough h.good)
  omega

end

end AtbmWifi
