import AtbmWifi.Fw.Download
import AtbmWifi.Lib.Reader

/-!
# Start of the firmware download

`atbm_start_load_firmware` with `USED_FW_FILE`, and `atbm_set_firmare` and `atbm_get_fw` on the
saved firmware.  A call makes attempts until one is not answered by a reset of the LMC: `LoadAttempt` is what the
kernel and the device answer during one.  The local variables survive the `goto loadfw`;
a pointer into an image goes by the number of the image, in the order they were obtained.
`atbm_fw_checksum` accepts every header.
-/

namespace AtbmWifi

open Memory

inductive FwSection
  | iccm
  | dccm
  | sram
  deriving DecidableEq, Repr

/-- `struct firmware_headr`, as the download reads it -/
structure FwHdr where
  len : FwSection → UInt32
  sramAddr : UInt32

inductive FwPtr
  | null
  | wild
  | image (k off : Nat)
  | saved (s : FwSection)
  deriving DecidableEq, Repr

/-- `struct firmware_altobeam` on the stack -/
structure FwAltobeam where
  hdr : FwHdr
  ptr : FwSection → FwPtr

/-- `atbm_fw`, with the bytes of the buffers it points to -/
structure FwCache where
  hdr : FwHdr
  part : FwSection → Option (List UInt8)

def FwCache.ready (c : FwCache) : Bool := (c.part .dccm).isSome || (c.part .iccm).isSome

structure LoadState where
  /-- The images obtained from `request_firmware` -/
  images : List (List UInt8)
  firmware : Option Nat
  cache : FwCache
  fw : FwAltobeam
  reads : List FwRead
  /-- Those of the last attempt -/
  writes : List FwWrite
  released : List Nat
  /-- What `atbm_fw` points to after a copy that could not be completed -/
  failedSaves : List (FwSection → Option (List UInt8))

def LoadState.view (st : LoadState) : FwPtr → FwView
  | .null => ⟨[], 0⟩
  | .wild => ⟨[], 0⟩
  | .image k off => ⟨st.images.getD k [], off⟩
  | .saved s => ⟨(st.cache.part s).getD [], 0⟩

/-- The answers during an attempt: of `request_firmware` (the error is `-(n + 1)`), `vmalloc`,
`atbm_kmalloc`, the writes of each section, and whether `atbm_reset_lmc_cpu` returns 0. -/
structure LoadAttempt where
  request : Except Nat (List UInt8)
  valloc : FwSection → Bool
  kalloc : FwSection → Bool
  writes : FwSection → List Int
  reset : Bool

/-- A section of `atbm_set_firmare` -/
def saveSection (valloc : FwSection → Bool) (s : FwSection) (st : LoadState) : Bool × LoadState :=
  let n := (st.cache.hdr.len s).toNat
  if n = 0 then (true, st)
  else if valloc s then
    let v := st.view (st.fw.ptr s)
    (true, { st with
      cache := { st.cache with part := setAt st.cache.part s (some (v.data 0 n)) }
      reads := st.reads ++ [v.read 0 n] })
  else (false, { st with cache := { st.cache with part := setAt st.cache.part s none } })

/-- The label `err` of `atbm_set_firmare` -/
def saveFailed (b : FwBuild) (st : LoadState) : LoadState :=
  let part := setAt (setAt st.cache.part .iccm none) .dccm none
  let part := if b.bleCodeSram && b.comb then setAt part .sram none else part
  { st with cache := { st.cache with part := part }, failedSaves := st.failedSaves ++ [part] }

def atbmSetFirmare (b : FwBuild) (valloc : FwSection → Bool) (st : LoadState) : LoadState :=
  if !b.savedFw then st
  else if st.fw.ptr .dccm = .null ∧ st.fw.ptr .iccm = .null then st
  else if st.cache.ready then st
  else
    let i := saveSection valloc .iccm { st with cache := { st.cache with hdr := st.fw.hdr } }
    if !i.1 then saveFailed b i.2
    else
      let d := saveSection valloc .dccm i.2
      if !d.1 then saveFailed b d.2
      else if b.bleCodeSram && b.comb then
        let s := saveSection valloc .sram d.2
        if !s.1 then saveFailed b s.2 else s.2
      else d.2

def savedPtr (c : FwCache) (s : FwSection) : FwPtr := if (c.part s).isSome then .saved s else .null

def atbmGetFw (b : FwBuild) (c : FwCache) (fw : FwAltobeam) : FwAltobeam where
  hdr := c.hdr
  ptr
    | .iccm => savedPtr c .iccm
    | .dccm => savedPtr c .dccm
    | .sram => if b.bleCodeSram && b.comb then savedPtr c .sram else fw.ptr .sram

/-- A u32 at `off` of the file -/
def fwWord (img : List UInt8) (off : Nat) : UInt32 := UInt32.ofNat (Wire.ofBytes (read (fun i => img.getD i 0) off 4))

/-- `ALTOBEAM_WIFI_HDR_FLAG` and `ALTOBEAM_WIFI_HDR_FLAG_V2` -/
def fwHdrFlag : UInt32 := 0x34353677
def fwHdrFlagV2 : UInt32 := 0x34353678

def fwHasHeader (img : List UInt8) : Bool := fwWord img 0 == fwHdrFlag || fwWord img 0 == fwHdrFlagV2

/-- `sizeof(struct firmware_headr)` -/
def fwHdrSize : Nat := 32

def fwHdrOf (img : List UInt8) : FwHdr where
  len
    | .iccm => fwWord img 8
    | .dccm => fwWord img 12
    | .sram => fwWord img 16
  sramAddr := fwWord img 20

/-- What `atbm_start_load_firmware` makes of image `k`, and false where it goes to `error` -/
def fwOfFile (b : FwBuild) (img : List UInt8) (k : Nat) (fw : FwAltobeam) : Bool × FwAltobeam :=
  if fwHasHeader img then
    let hdr := fwHdrOf img
    let dccm := fwHdrSize + (hdr.len .iccm).toNat
    let addr := if b.bleCodeSram && fwWord img 0 == fwHdrFlag then b.bleSramAddr else hdr.sramAddr
    if hdr.len .sram ≠ 0 then
      (true, ⟨{ hdr with sramAddr := addr }, fun
        | .iccm => .image k fwHdrSize
        | .dccm => .image k dccm
        | .sram => .image k (dccm + (hdr.len .dccm).toNat)⟩)
    else
      (true, ⟨hdr, fun
        | .iccm => .image k fwHdrSize
        | .dccm => .image k dccm
        | .sram => fw.ptr .sram⟩)
  else if b.itcmSize.toNat < img.length then
    let dccmLen := UInt32.ofNat (img.length - b.itcmSize.toNat)
    let hdr := { fw.hdr with len := setAt (setAt fw.hdr.len .iccm b.itcmSize) .dccm dccmLen }
    if b.dtcmSize < dccmLen.toNat then (false, { fw with hdr := hdr })
    else (true, ⟨hdr, setAt (setAt fw.ptr .iccm (.image k 0)) .dccm (.image k b.itcmSize.toNat)⟩)
  else
    let hdr := { fw.hdr with len := setAt (setAt fw.hdr.len .iccm (UInt32.ofNat img.length)) .dccm 0 }
    (true, ⟨hdr, setAt fw.ptr .iccm (.image k 0)⟩)

/-- The state with an image from `request_firmware`, and its header read -/
def imageRequested (b : FwBuild) (img : List UInt8) (st : LoadState) : LoadState :=
  { st with
    images := st.images ++ [img]
    firmware := some st.images.length
    fw := (fwOfFile b img st.images.length st.fw).2
    reads := st.reads ++ ⟨0, 4, img.length⟩ :: (if fwHasHeader img then [⟨0, fwHdrSize, img.length⟩] else []) }

/-- Up to the download; a value is the `ret` with which the code goes to `error`. -/
def loadSource (b : FwBuild) (e : LoadAttempt) (st : LoadState) : Option Int × LoadState :=
  if st.cache.ready then (none, { st with fw := atbmGetFw b st.cache st.fw })
  else
    match e.request with
    | .error n => (some (-(n + 1)), { st with firmware := none })
    | .ok img =>
      if (fwOfFile b img st.images.length st.fw).1 then (none, atbmSetFirmare b e.valloc (imageRequested b img st))
      else (some (-1), imageRequested b img st)

def loadPart (b : FwBuild) (e : LoadAttempt) (s : FwSection) (addr : Nat) (st : LoadState) : Option Int × LoadState :=
  let d := atbmLoadFirmwareGeneric b (e.kalloc s) (e.writes s) (st.view (st.fw.ptr s)) (st.fw.hdr.len s).toNat addr
  (d.ret, { st with reads := st.reads ++ d.reads, writes := st.writes ++ d.writes })

def dccmMax : UInt32 := 0xa000

def cutDccm (st : LoadState) : LoadState :=
  let n := st.fw.hdr.len .dccm
  let len := setAt st.fw.hdr.len .dccm (if dccmMax < n then dccmMax else n)
  { st with fw := { st.fw with hdr := { st.fw.hdr with len := len } } }

/-- A section, unless the one before it failed or is still under way -/
def thenLoad (p : Option Int × LoadState) (next : LoadState → Option Int × LoadState) : Option Int × LoadState :=
  match p.1 with
  | none => p
  | some ret => if ret < 0 then p else next p.2

def loadParts (b : FwBuild) (e : LoadAttempt) (st : LoadState) : Option Int × LoadState :=
  let dccm := thenLoad (loadPart b e .iccm b.itcmAddr st) fun st => loadPart b e .dccm b.dtcmAddr (cutDccm st)
  if dccm.2.fw.hdr.len .sram = 0 then dccm
  else thenLoad dccm fun st => loadPart b e .sram st.fw.hdr.sramAddr.toNat st

/-- From `loadfw` to `error` -/
def loadAttempt (b : FwBuild) (e : LoadAttempt) (st : LoadState) : Option Int × LoadState :=
  let src := loadSource b e st
  match src.1 with
  | some ret => (some ret, src.2)
  | none => loadParts b e src.2

def releaseFirmware (st : LoadState) : LoadState :=
  { st with firmware := none, released := st.released ++ st.firmware.toList }

/-- `atbm_start_load_firmware`: the value it returns, unless it is still at it -/
def atbmStartLoadFirmware (b : FwBuild) : List LoadAttempt → LoadState → Option Int × LoadState
  | [], st => (none, st)
  | e :: es, st =>
    let p := loadAttempt b e st
    match p.1 with
    | none => p
    | some ret =>
      if ret < 0 ∧ e.reset = true then atbmStartLoadFirmware b es { p.2 with writes := [] }
      else (some ret, releaseFirmware p.2)

/-- The state at the call: the header on the stack is what the stack holds. -/
def LoadState.start (cache : FwCache) (hdr : FwHdr) : LoadState where
  images := []
  firmware := none
  cache := cache
  fw := ⟨hdr, fun _ => .wild⟩
  reads := []
  writes := []
  released := []
  failedSaves := []

end AtbmWifi
