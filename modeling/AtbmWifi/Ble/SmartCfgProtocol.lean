import AtbmWifi.Ble.SmartCfg

/-!
# What provisioning accepts

* `Session`: the writes of a peer that keeps to the protocol, which gives both values.
-/

namespace AtbmWifi

open Transition

def decimalDigit (c : UInt8) : Option Nat := if 48 ≤ c.toNat ∧ c.toNat ≤ 57 then some (c.toNat - 48) else none

def decimal : List UInt8 → Option Nat
  | [a] => decimalDigit a
  | [a, b] => do return 10 * (← decimalDigit a) + (← decimalDigit b)
  | _ => none

/-- The length said by a message: the tag, a separator and the digits. -/
def saysLength (tag w : List UInt8) : Option Nat := if tag <+: w then decimal (w.drop (tag.length + 1)) else none

/-- How a value is sent: its length, and then its parts.  What comes before is ignored. -/
structure Field (tag : List UInt8) where
  idle : List (List UInt8)
  msg : List UInt8
  parts : List (List UInt8)
  idle_ignored : ∀ w ∈ idle, ¬tag <+: w

namespace Field

variable {tag : List UInt8}

def writes (f : Field tag) : List (List UInt8) := f.idle ++ f.msg :: f.parts
def value (f : Field tag) : List UInt8 := f.parts.flatten

def Complete (f : Field tag) : Prop := saysLength tag f.msg = some f.value.length

def add (f : Field tag) (w : List UInt8) : Field tag := { f with parts := f.parts ++ [w] }

theorem writes_add (f : Field tag) (w : List UInt8) : (f.add w).writes = f.writes ++ [w] := by
  unfold writes add
  rw [List.append_assoc, List.cons_append]

theorem value_add (f : Field tag) (w : List UInt8) : (f.add w).value = f.value ++ w := by
  unfold value add
  rw [List.flatten_append, List.flatten_singleton]

end Field

structure Session where
  ssid : Field ssidTag
  pwd : Field pwdTag
  /-- later writes -/
  rest : List (List UInt8)
  ssid_complete : ssid.Complete
  ssid_size : 1 ≤ ssid.value.length ∧ ssid.value.length ≤ 32
  pwd_complete : pwd.Complete
  pwd_size : pwd.value.length = 0 ∨ 5 ≤ pwd.value.length ∧ pwd.value.length ≤ 64

namespace Session

def writes (e : Session) : List (List UInt8) := e.ssid.writes ++ (e.pwd.writes ++ e.rest)

/-- `ble_smart_info` holds the values. -/
structure Stored (e : Session) (c : BleSmartCfg) : Prop where
  ssidLen : c.ssidLen.toNat = e.ssid.value.length
  ssid : c.ssid.val.take c.ssidLen.toNat = e.ssid.value
  pwdLen : c.pwdLen.toNat = e.pwd.value.length
  pwd : c.pwd.val.take c.pwdLen.toNat = e.pwd.value

structure Carried (e : Session) (ind : WsmBleSmtInd) : Prop where
  ssidLen : ind.ssidLen.toNat = e.ssid.value.length
  ssid : ind.ssid.val = e.ssid.value ++ List.replicate (32 - e.ssid.value.length) 0
  pwdLen : ind.pwdLen.toNat = e.pwd.value.length
  pwd : ind.pwd.val = e.pwd.value ++ List.replicate (64 - e.pwd.value.length) 0

def later (e : Session) (w : List UInt8) : Session := { e with rest := e.rest ++ [w] }

theorem writes_later (e : Session) (w : List UInt8) : (e.later w).writes = e.writes ++ [w] := by
  unfold writes later
  simp only [List.append_assoc]

end Session

structure SmartCfg.Provisions (s : SmartCfg) : Prop where
  ssid : s.info.ssidCnt ≤ s.info.ssidLen ∧ s.info.ssidLen ≤ 32
  pwd : s.info.pwdCnt ≤ s.info.pwdLen ∧ s.info.pwdLen ≤ 64
  complete : s.info.step = 4 → ∃ e : Session, e.writes = s.writes ∧ e.Stored s.info
  handed : ∀ ind ∈ s.handed, ∃ e : Session, e.writes = s.writes ∧ e.Carried ind

/-- The condition on a write: what is read for a length says one, of 1 to 32 or of at most 64. -/
def SmtAct.Clean (s : SmartCfg) : SmtAct → Prop
  | write om =>
    (s.info.step = 0 → ssidTag <+: om → (saysLength ssidTag om).any (fun n => decide (1 ≤ n ∧ n ≤ 32)) = true) ∧
      (s.info.step = 2 → pwdTag <+: om → (saysLength pwdTag om).any (fun n => decide (n ≤ 64)) = true)
  | task _ | quit => True

instance SmtAct.decClean (s : SmartCfg) : (a : SmtAct) → Decidable (a.Clean s)
  | write om => inferInstanceAs (Decidable ((s.info.step = 0 → ssidTag <+: om →
      (saysLength ssidTag om).any (fun n => decide (1 ≤ n ∧ n ≤ 32)) = true) ∧ (s.info.step = 2 → pwdTag <+: om →
        (saysLength pwdTag om).any (fun n => decide (n ≤ 64)) = true)))
  | task _ | quit => .isTrue trivial

theorem startsWith_iff {tag om : List UInt8} (h0 : (0 : UInt8) ∉ tag) (hlen : tag.length ≤ 255) :
    startsWith tag om = true ↔ tag <+: om := by
  unfold startsWith accessData
  rw [beq_iff_eq]
  constructor
  · intro h
    rcases Nat.lt_or_ge om.length tag.length with hlt | hle
    · have hzero : (om ++ List.replicate (255 - om.length) (0 : UInt8))[om.length]? = some 0 := by
        rw [List.getElem?_append_right (Nat.le_refl _), Nat.sub_self, List.getElem?_replicate]
        exact if_pos (by omega)
      have : tag[om.length]? = some 0 := by rw [← h, List.getElem?_take_of_lt hlt, hzero]
      exact absurd (List.mem_of_getElem? this) h0
    · rw [List.take_append_of_le_length hle] at h
      rw [← h]
      exact List.take_prefix _ _
  · intro h
    rw [List.take_append_of_le_length h.length_le]
    exact (List.prefix_iff_eq_take.mp h).symm

theorem startsWith_ssid {om : List UInt8} : startsWith ssidTag om = true ↔ ssidTag <+: om :=
  startsWith_iff (by decide) (by decide)

theorem startsWith_pwd {om : List UInt8} : startsWith pwdTag om = true ↔ pwdTag <+: om :=
  startsWith_iff (by decide) (by decide)

theorem decimalDigit_eq {c : UInt8} {n : Nat} (h : decimalDigit c = some n) : (c - 48).toNat = n ∧ n ≤ 9 := by
  unfold decimalDigit at h
  split at h
  · next hc =>
    cases h
    have h48 : (48 : UInt8) ≤ c := UInt8.le_iff_toNat_le.mpr hc.1
    rw [UInt8.toNat_sub_of_le _ _ h48]
    exact ⟨rfl, by omega⟩
  · cases h

theorem tag_prefix_of_saysLength {tag w : List UInt8} {n : Nat} (h : saysLength tag w = some n) : tag <+: w := by
  unfold saysLength at h
  split at h
  · next htag => exact htag
  · cases h

theorem decimal_pair {a b : UInt8} {n : Nat} (h : decimal [a, b] = some n) :
    ∃ x y, decimalDigit a = some x ∧ decimalDigit b = some y ∧ n = 10 * x + y := by
  unfold decimal at h
  dsimp only at h
  cases ha : decimalDigit a with
  | none =>
    rw [ha] at h
    cases h
  | some x =>
    cases hb : decimalDigit b with
    | none =>
      rw [ha, hb] at h
      cases h
    | some y =>
      rw [ha, hb] at h
      cases h
      exact ⟨x, y, rfl, rfl, rfl⟩

theorem messageLen_eq {tag om : List UInt8} {n : Nat} {old : UInt8} (h : saysLength tag om = some n) :
    (messageLen (tag.length + 1) om old).toNat = n := by
  unfold saysLength at h
  split at h
  · have hdata : ∀ i, i < om.length → (accessData om).getD i 0 = om.getD i 0 := by
      intro i hi
      unfold accessData
      rw [List.getD_eq_getElem?_getD, List.getElem?_append_left hi, ← List.getD_eq_getElem?_getD]
    have hdrop : ∀ i, (om.drop (tag.length + 1)).getD i 0 = om.getD (tag.length + 1 + i) 0 := by
      intro i
      rw [List.getD_eq_getElem?_getD, List.getElem?_drop, ← List.getD_eq_getElem?_getD]
    have hlen : (om.drop (tag.length + 1)).length = om.length - (tag.length + 1) := List.length_drop
    have hfirst := hdrop 0
    have hsecond := hdrop 1
    unfold messageLen
    match hds : om.drop (tag.length + 1), h with
    | [a], h =>
      rw [hds] at hlen hfirst
      have hom : om.length = tag.length + 1 + 1 := by
        simp only [List.length_cons, List.length_nil] at hlen
        omega
      rw [if_pos hom, hdata _ (by omega), ← Nat.add_zero (tag.length + 1), ← hfirst]
      exact (decimalDigit_eq h).1
    | [a, b], h =>
      rw [hds] at hlen hfirst hsecond
      have hom : om.length = tag.length + 1 + 2 := by
        simp only [List.length_cons, List.length_nil] at hlen
        omega
      obtain ⟨x, y, ha, hb, rfl⟩ := decimal_pair h
      obtain ⟨hax, hx⟩ := decimalDigit_eq ha
      obtain ⟨hby, hy⟩ := decimalDigit_eq hb
      rw [if_neg (by omega), if_pos hom, hdata _ (by omega), hdata _ (by omega), ← hsecond,
        show om.getD (tag.length + 1) 0 = a from hfirst.symm]
      show (10 * (a - 48) + (b - 48)).toNat = 10 * x + y
      rw [UInt8.toNat_add, UInt8.toNat_mul, hax, hby, show (10 : UInt8).toNat = 10 from rfl]
      omega
    | [], h => cases h
    | _ :: _ :: _ :: _, h => cases h
  · cases h

namespace ByteArr

variable {n : Nat} {a : ByteArr n} {pos : Nat} {w : List UInt8}

variable (pos) in
theorem copy_some (h : pos + w.length ≤ n) : ∃ b, a.copy pos w = some b ∧
    b.val = a.val.take pos ++ w ++ a.val.drop (pos + w.length) := by
  unfold copy
  rw [dif_pos h]
  exact ⟨_, rfl, rfl⟩

theorem take_copy {b : ByteArr n} (h : a.copy pos w = some b) :
    b.val.take (pos + w.length) = a.val.take pos ++ w := by
  unfold copy at h
  split at h
  · next hle =>
    cases h
    have hlen : (a.val.take pos ++ w).length = pos + w.length := by
      rw [List.length_append, List.length_take, a.property]
      omega
    show (a.val.take pos ++ w ++ a.val.drop (pos + w.length)).take (pos + w.length) = a.val.take pos ++ w
    rw [List.take_append_of_le_length (by omega), ← hlen, List.take_length]
  · cases h

theorem first_copy (a : ByteArr n) {len : Nat} (hlen : len ≤ n) :
    ∃ b, a.first len = some (a.val.take len) ∧ (zero n).copy 0 (a.val.take len) = some b ∧
      b.val = a.val.take len ++ List.replicate (n - len) 0 := by
  have hw : (a.val.take len).length = len := by
    rw [List.length_take, a.property]
    omega
  obtain ⟨b, hb, hval⟩ := copy_some (a := zero n) (w := a.val.take len) 0 (by omega)
  refine ⟨b, ?_, hb, ?_⟩
  · unfold first
    rw [if_pos hlen]
  · rw [hval, hw, Nat.zero_add, List.take_zero, List.nil_append]
    unfold zero
    rw [List.drop_replicate]

end ByteArr

/-- A part was put behind the `cnt` bytes that had come. -/
structure Took {n : Nat} (a : ByteArr n) (cnt : UInt8) (om : List UInt8) (a' : ByteArr n) (cnt' : UInt8) : Prop where
  count : cnt'.toNat = cnt.toNat + om.length
  bytes : a'.val.take cnt'.toNat = a.val.take cnt.toNat ++ om

theorem takePart_cases {n : Nat} (a : ByteArr n) (cnt : UInt8) {len : UInt8} (om : List UInt8) (hlen : len.toNat ≤ n) :
    (takePart a cnt len om = .tooLong ∧ len.toNat < cnt.toNat + om.length) ∨
      ∃ a' cnt', takePart a cnt len om = .taken a' cnt' ∧ Took a cnt om a' cnt' ∧ cnt'.toNat ≤ len.toNat := by
  unfold takePart
  split
  · next hfits =>
    obtain ⟨b, hcopy, -⟩ := ByteArr.copy_some (a := a) _ (show cnt.toNat + om.length ≤ n by omega)
    have hcnt : (cnt + UInt8.ofNat om.length).toNat = cnt.toNat + om.length := by
      have := len.toNat_lt
      rw [UInt8.toNat_add, UInt8.toNat_ofNat']
      omega
    rw [hcopy]
    refine .inr ⟨b, _, rfl, ⟨hcnt, ?_⟩, ?_⟩
    · rw [hcnt]
      exact ByteArr.take_copy hcopy
    · omega
  · next hfits => exact .inl ⟨rfl, by omega⟩

/-- What the `switch` does to a write. -/
inductive Switched (c : BleSmartCfg) (om : List UInt8) : BleSmartCfg → Bool → Prop
  | ignored : (c.step = 0 → ¬ssidTag <+: om) → c.step ≠ 1 → (c.step = 2 → ¬pwdTag <+: om) → c.step ≠ 3 →
      Switched c om c false
  | ssidLenErr : c.step = 0 → ssidTag <+: om → 32 < (messageLen 5 om c.ssidLen).toNat →
      Switched c om { c with ssidLen := messageLen 5 om c.ssidLen, step := bleSmartCfgStatusSsidLenErr } true
  | ssidLen : c.step = 0 → ssidTag <+: om → (messageLen 5 om c.ssidLen).toNat ≤ 32 →
      Switched c om { c with ssidLen := messageLen 5 om c.ssidLen, step := 1 } false
  | ssidErr : c.step = 1 → c.ssidLen.toNat < c.ssidCnt.toNat + om.length →
      Switched c om { c with step := bleSmartCfgStatusSsidErr } true
  | ssidPart {a : ByteArr 32} {cnt : UInt8} : c.step = 1 → Took c.ssid c.ssidCnt om a cnt → cnt.toNat < c.ssidLen.toNat →
      Switched c om { c with ssid := a, ssidCnt := cnt } false
  | ssidLast {a : ByteArr 32} : c.step = 1 → Took c.ssid c.ssidCnt om a c.ssidLen →
      Switched c om { c with ssid := a, ssidCnt := c.ssidLen, step := 2 } false
  | pwdLenErr : c.step = 2 → pwdTag <+: om →
      (64 < (messageLen 4 om c.pwdLen).toNat ∨ 0 < (messageLen 4 om c.pwdLen).toNat ∧ (messageLen 4 om c.pwdLen).toNat < 5) →
      Switched c om { c with pwdLen := messageLen 4 om c.pwdLen, step := bleSmartCfgStatusPwdLenErr } true
  | pwdEmpty : c.step = 2 → pwdTag <+: om → messageLen 4 om c.pwdLen = 0 →
      Switched c om { c with pwdLen := 0, step := 4 } false
  | pwdLen : c.step = 2 → pwdTag <+: om → 5 ≤ (messageLen 4 om c.pwdLen).toNat → (messageLen 4 om c.pwdLen).toNat ≤ 64 →
      Switched c om { c with pwdLen := messageLen 4 om c.pwdLen, step := 3 } false
  | pwdErr : c.step = 3 → c.pwdLen.toNat < c.pwdCnt.toNat + om.length →
      Switched c om { c with step := bleSmartCfgStatusPwdErr } true
  | pwdPart {a : ByteArr 64} {cnt : UInt8} : c.step = 3 → Took c.pwd c.pwdCnt om a cnt → cnt.toNat < c.pwdLen.toNat →
      Switched c om { c with pwd := a, pwdCnt := cnt } false
  | pwdLast {a : ByteArr 64} : c.step = 3 → Took c.pwd c.pwdCnt om a c.pwdLen →
      Switched c om { c with pwd := a, pwdCnt := c.pwdLen, step := 4 } false

namespace BleSmartCfg

structure Bounded (c : BleSmartCfg) : Prop where
  ssidCnt : c.ssidCnt.toNat ≤ c.ssidLen.toNat
  pwdCnt : c.pwdCnt.toNat ≤ c.pwdLen.toNat
  /-- a length that is too big is kept -/
  ssidLen : c.ssidLen.toNat ≤ 32 ∨ c.step = bleSmartCfgStatusSsidLenErr
  pwdLen : c.pwdLen.toNat ≤ 64 ∨ c.step = bleSmartCfgStatusPwdLenErr
  ssidNone : c.step = 0 → c.ssidCnt = 0
  pwdNone : c.step = 0 ∨ c.step = 1 ∨ c.step = 2 → c.pwdCnt = 0

variable {c c' : BleSmartCfg} {om : List UInt8} {posts : Bool}

theorem switchStep_ssidMessage (h0 : c.step = 0) (htag : ssidTag <+: om) :
    ∃ c' posts, c.switchStep om = some (c', posts) ∧ Switched c om c' posts := by
  unfold switchStep ssidMessage
  rw [if_pos h0, if_pos (startsWith_ssid.mpr htag)]
  dsimp only
  split
  · next hbig => exact ⟨_, _, rfl, .ssidLenErr h0 htag (UInt8.lt_iff_toNat_lt.mp hbig)⟩
  · next hfits =>
    have hle : (messageLen 5 om c.ssidLen).toNat ≤ 32 := UInt8.le_iff_toNat_le.mp (UInt8.not_lt.mp hfits)
    exact ⟨_, _, rfl, .ssidLen h0 htag hle⟩

theorem switchStep_pwdMessage (h2 : c.step = 2) (htag : pwdTag <+: om) :
    ∃ c' posts, c.switchStep om = some (c', posts) ∧ Switched c om c' posts := by
  unfold switchStep pwdMessage
  rw [if_neg (by rw [h2]; decide), if_neg (by rw [h2]; decide), if_pos h2, if_pos (startsWith_pwd.mpr htag)]
  dsimp only
  split
  · next hbig => exact ⟨_, _, rfl, .pwdLenErr h2 htag (.inl (UInt8.lt_iff_toNat_lt.mp hbig))⟩
  · next hbig =>
    have hle : (messageLen 4 om c.pwdLen).toNat ≤ 64 := UInt8.le_iff_toNat_le.mp (UInt8.not_lt.mp hbig)
    split
    · next hshort =>
      exact ⟨_, _, rfl, .pwdLenErr h2 htag
        (.inr ⟨UInt8.lt_iff_toNat_lt.mp hshort.2, UInt8.lt_iff_toNat_lt.mp hshort.1⟩)⟩
    · next hshort =>
      split
      · next hempty =>
        rw [hempty]
        exact ⟨_, _, rfl, .pwdEmpty h2 htag hempty⟩
      · next hempty =>
        have hpos : 0 < messageLen 4 om c.pwdLen := UInt8.pos_iff_ne_zero.mpr hempty
        have h5 : 5 ≤ messageLen 4 om c.pwdLen := UInt8.not_lt.mp fun hlt => hshort ⟨hlt, hpos⟩
        exact ⟨_, _, rfl, .pwdLen h2 htag (UInt8.le_iff_toNat_le.mp h5) hle⟩

variable (om) in
theorem switchStep_ssidPart (h1 : c.step = 1) (hlen : c.ssidLen.toNat ≤ 32) :
    ∃ c' posts, c.switchStep om = some (c', posts) ∧ Switched c om c' posts := by
  unfold switchStep ssidPart
  rw [if_neg (by rw [h1]; decide), if_pos h1]
  rcases takePart_cases c.ssid c.ssidCnt om hlen with ⟨htake, hlt⟩ | ⟨a, cnt, htake, htook, hle⟩
  · rw [htake]
    exact ⟨_, _, rfl, .ssidErr h1 hlt⟩
  · rw [htake]
    dsimp only
    split
    · next heq =>
      subst heq
      exact ⟨_, _, rfl, .ssidLast h1 htook⟩
    · next hne =>
      have hne : cnt.toNat ≠ c.ssidLen.toNat := fun h => hne (UInt8.toNat_inj.mp h)
      exact ⟨_, _, rfl, .ssidPart h1 htook (by omega)⟩

variable (om) in
theorem switchStep_pwdPart (h3 : c.step = 3) (hlen : c.pwdLen.toNat ≤ 64) :
    ∃ c' posts, c.switchStep om = some (c', posts) ∧ Switched c om c' posts := by
  unfold switchStep pwdPart
  rw [if_neg (by rw [h3]; decide), if_neg (by rw [h3]; decide), if_neg (by rw [h3]; decide), if_pos h3]
  rcases takePart_cases c.pwd c.pwdCnt om hlen with ⟨htake, hlt⟩ | ⟨a, cnt, htake, htook, hle⟩
  · rw [htake]
    exact ⟨_, _, rfl, .pwdErr h3 hlt⟩
  · rw [htake]
    dsimp only
    split
    · next heq =>
      subst heq
      exact ⟨_, _, rfl, .pwdLast h3 htook⟩
    · next hne =>
      have hne : cnt.toNat ≠ c.pwdLen.toNat := fun h => hne (UInt8.toNat_inj.mp h)
      exact ⟨_, _, rfl, .pwdPart h3 htook (by omega)⟩

theorem switchStep_ignored (h0 : c.step = 0 → ¬ssidTag <+: om) (h1 : c.step ≠ 1) (h2 : c.step = 2 → ¬pwdTag <+: om)
    (h3 : c.step ≠ 3) : c.switchStep om = some (c, false) := by
  unfold switchStep
  rw [if_neg h1, if_neg h3]
  split
  · next h =>
    unfold ssidMessage
    rw [if_neg fun hs => h0 h (startsWith_ssid.mp hs)]
  · split
    · next h =>
      unfold pwdMessage
      rw [if_neg fun hs => h2 h (startsWith_pwd.mp hs)]
    · rfl

theorem Bounded.switched (h : c.Bounded) (om : List UInt8) :
    ∃ c' posts, c.switchStep om = some (c', posts) ∧ Switched c om c' posts := by
  by_cases h1 : c.step = 1
  · rcases h.ssidLen with hlen | herr
    · exact switchStep_ssidPart _ h1 hlen
    · rw [herr] at h1
      exact absurd h1 (by decide)
  · by_cases h3 : c.step = 3
    · rcases h.pwdLen with hlen | herr
      · exact switchStep_pwdPart _ h3 hlen
      · rw [herr] at h3
        exact absurd h3 (by decide)
    · by_cases h0 : c.step = 0 ∧ ssidTag <+: om
      · exact switchStep_ssidMessage h0.1 h0.2
      · by_cases h2 : c.step = 2 ∧ pwdTag <+: om
        · exact switchStep_pwdMessage h2.1 h2.2
        · have h0 : c.step = 0 → ¬ssidTag <+: om := fun h htag => h0 ⟨h, htag⟩
          have h2 : c.step = 2 → ¬pwdTag <+: om := fun h htag => h2 ⟨h, htag⟩
          exact ⟨_, _, switchStep_ignored h0 h1 h2 h3, .ignored h0 h1 h2 h3⟩

theorem bounded_zero : zero.Bounded :=
  ⟨Nat.le_refl _, Nat.le_refl _, .inl (by decide), .inl (by decide), fun _ => rfl, fun _ => rfl⟩

theorem Bounded.step (h : c.Bounded) (hs : Switched c om c' posts) : c'.Bounded := by
  obtain ⟨hsc, hpc, hsl, hpl, hsn, hpn⟩ := h
  have hsmall : c.step ≠ bleSmartCfgStatusSsidLenErr → c.ssidLen.toNat ≤ 32 := fun hne => hsl.resolve_right hne
  have hpsmall : c.step ≠ bleSmartCfgStatusPwdLenErr → c.pwdLen.toNat ≤ 64 := fun hne => hpl.resolve_right hne
  cases hs with
  | ignored => exact ⟨hsc, hpc, hsl, hpl, hsn, hpn⟩
  | ssidLenErr h0 _ _ =>
    refine ⟨?_, hpc, .inr rfl, .inl (hpsmall (by rw [h0]; decide)), fun h => absurd h (by dsimp only; decide), fun _ => hpn (.inl h0)⟩
    rw [hsn h0]
    exact Nat.zero_le _
  | ssidLen h0 _ hle =>
    refine ⟨?_, hpc, .inl hle, .inl (hpsmall (by rw [h0]; decide)), fun h => absurd h (by dsimp only; decide), fun _ => hpn (.inl h0)⟩
    rw [hsn h0]
    exact Nat.zero_le _
  | ssidErr h1 _ =>
    exact ⟨hsc, hpc, .inl (hsmall (by rw [h1]; decide)), .inl (hpsmall (by rw [h1]; decide)),
      fun h => absurd h (by dsimp only; decide), fun _ => hpn (.inr (.inl h1))⟩
  | ssidPart h1 _ hlt =>
    exact ⟨Nat.le_of_lt hlt, hpc, hsl, hpl, fun h => absurd (h1.symm.trans h) (by decide), hpn⟩
  | ssidLast h1 _ =>
    exact ⟨Nat.le_refl _, hpc, .inl (hsmall (by rw [h1]; decide)), .inl (hpsmall (by rw [h1]; decide)),
      fun h => absurd h (by dsimp only; decide), fun _ => hpn (.inr (.inl h1))⟩
  | pwdLenErr h2 _ _ =>
    refine ⟨hsc, ?_, .inl (hsmall (by rw [h2]; decide)), .inr rfl, fun h => absurd h (by dsimp only; decide),
      fun _ => hpn (.inr (.inr h2))⟩
    simp [hpn (.inr (.inr h2))]
  | pwdEmpty h2 _ _ =>
    refine ⟨hsc, ?_, .inl (hsmall (by rw [h2]; decide)), .inl (Nat.zero_le _), fun h => absurd h (by dsimp only; decide),
      fun _ => hpn (.inr (.inr h2))⟩
    simp [hpn (.inr (.inr h2))]
  | pwdLen h2 _ _ hle =>
    refine ⟨hsc, ?_, .inl (hsmall (by rw [h2]; decide)), .inl hle, fun h => absurd h (by dsimp only; decide),
      fun _ => hpn (.inr (.inr h2))⟩
    simp [hpn (.inr (.inr h2))]
  | pwdErr h3 _ =>
    exact ⟨hsc, hpc, .inl (hsmall (by rw [h3]; decide)), .inl (hpsmall (by rw [h3]; decide)),
      fun h => absurd h (by dsimp only; decide), fun h => absurd h (by dsimp only; decide)⟩
  | pwdPart h3 _ hlt =>
    refine ⟨hsc, Nat.le_of_lt hlt, hsl, hpl, fun h => absurd (h3.symm.trans h) (by decide), fun h => ?_⟩
    have h : c.step = 0 ∨ c.step = 1 ∨ c.step = 2 := h
    rw [h3] at h
    exact absurd h (by decide)
  | pwdLast h3 _ =>
    exact ⟨hsc, Nat.le_refl _, .inl (hsmall (by rw [h3]; decide)), .inl (hpsmall (by rw [h3]; decide)),
      fun h => absurd h (by dsimp only; decide), fun h => absurd h (by dsimp only; decide)⟩

/-- The steps after which the semaphore has been released. -/
def Released (step : UInt8) : Prop := step = 4 ∨ bleSmartCfgStatusBusy ≤ step

theorem Switched.released (hs : Switched c om c' posts) (h : posts = true) : Released c'.step := by
  cases hs with
  | ssidLenErr | ssidErr | pwdLenErr | pwdErr => exact .inr (by dsimp only; decide)
  | _ => cases h

def run (c : BleSmartCfg) (ws : List (List UInt8)) : Option BleSmartCfg :=
  ws.foldlM (fun c om => (c.switchStep om).map Prod.fst) c

def after (ws : List (List UInt8)) : Option BleSmartCfg := zero.run ws

theorem run_append (c : BleSmartCfg) (ws us : List (List UInt8)) :
    c.run (ws ++ us) = (c.run ws).bind fun c => c.run us :=
  List.foldlM_append

theorem run_cons (hs : c.switchStep om = some (c', posts)) (ws : List (List UInt8)) : c.run (om :: ws) = c'.run ws := by
  unfold run
  rw [List.foldlM_cons, hs]
  rfl

theorem after_write {ws : List (List UInt8)} (hc : after ws = some c) (hs : c.switchStep om = some (c', posts)) :
    after (ws ++ [om]) = some c' := by
  unfold after
  rw [run_append, show zero.run ws = some c from hc]
  exact run_cons hs []

theorem run_ignored {ws : List (List UInt8)} (h0 : c.step = 0 → ∀ w ∈ ws, ¬ssidTag <+: w) (h1 : c.step ≠ 1)
    (h2 : c.step = 2 → ∀ w ∈ ws, ¬pwdTag <+: w) (h3 : c.step ≠ 3) : c.run ws = some c := by
  induction ws with
  | nil => rfl
  | cons w ws ih =>
    have hw := switchStep_ignored (fun h => h0 h w List.mem_cons_self) h1 (fun h => h2 h w List.mem_cons_self) h3
    rw [run_cons hw]
    exact ih (fun h w hw => h0 h w (List.mem_cons_of_mem _ hw)) fun h w hw => h2 h w (List.mem_cons_of_mem _ hw)

theorem mem_of_flatten_nil (parts : List (List UInt8)) (h : parts.flatten.length = 0) : ∀ w ∈ parts, w = [] := by
  intro w hw
  exact List.flatten_eq_nil_iff.mp (List.length_eq_zero_iff.mp h) w hw

theorem run_parts {n : Nat} (part : ByteArr n → UInt8 → BleSmartCfg) (last : ByteArr n → BleSmartCfg) {len : UInt8}
    (hstep : ∀ a cnt w, cnt.toNat + w.length ≤ len.toNat → ∃ a' cnt' posts, Took a cnt w a' cnt' ∧
      (part a cnt).switchStep w = some (if cnt'.toNat < len.toNat then part a' cnt' else last a', posts))
    (hlast : ∀ a ws, (∀ w ∈ ws, w = []) → (last a).run ws = some (last a)) (parts : List (List UInt8))
    {a : ByteArr n} {cnt : UInt8} (hlt : cnt.toNat < len.toNat)
    (hparts : cnt.toNat + parts.flatten.length = len.toNat) :
    ∃ b, (part a cnt).run parts = some (last b) ∧
      b.val.take len.toNat = a.val.take cnt.toNat ++ parts.flatten := by
  induction parts generalizing a cnt with
  | nil =>
    rw [List.flatten_nil, List.length_nil] at hparts
    omega
  | cons w parts ih =>
    rw [List.flatten_cons, List.length_append] at hparts
    obtain ⟨a', cnt', posts, htook, hsw⟩ := hstep a cnt w (by omega)
    have hcount := htook.count
    by_cases hmore : cnt'.toNat < len.toNat
    · rw [if_pos hmore] at hsw
      obtain ⟨b, hrun, hb⟩ := ih (a := a') hmore (by omega)
      refine ⟨b, (run_cons hsw parts).trans hrun, ?_⟩
      rw [hb, htook.bytes, List.flatten_cons, List.append_assoc]
    · rw [if_neg hmore] at hsw
      have hnil := mem_of_flatten_nil parts (by omega)
      refine ⟨a', (run_cons hsw parts).trans (hlast a' parts hnil), ?_⟩
      have hall : len.toNat = cnt'.toNat := by omega
      rw [hall, htook.bytes, List.flatten_cons, List.eq_nil_of_length_eq_zero (l := parts.flatten) (by omega),
        List.append_nil]

theorem run_ssidParts (parts : List (List UInt8)) (h1 : c.step = 1) (hlen : c.ssidLen.toNat ≤ 32)
    (hlt : c.ssidCnt.toNat < c.ssidLen.toNat) (hparts : c.ssidCnt.toNat + parts.flatten.length = c.ssidLen.toNat) :
    ∃ a : ByteArr 32, c.run parts = some { c with ssid := a, ssidCnt := c.ssidLen, step := 2 } ∧
      a.val.take c.ssidLen.toNat = c.ssid.val.take c.ssidCnt.toNat ++ parts.flatten := by
  refine run_parts (fun a cnt => { c with ssid := a, ssidCnt := cnt })
    (fun a => { c with ssid := a, ssidCnt := c.ssidLen, step := 2 }) ?_ ?_ parts hlt hparts
  · intro a cnt w hfits
    obtain ⟨c', posts, hsw, hs⟩ := switchStep_ssidPart (c := { c with ssid := a, ssidCnt := cnt }) w h1 hlen
    cases hs with
    | ignored _ hne => exact absurd h1 hne
    | ssidErr _ hgt => exact absurd hgt (Nat.not_lt.mpr hfits)
    | @ssidPart a' cnt' _ htook hmore => exact ⟨a', cnt', _, htook, by rw [if_pos hmore]; exact hsw⟩
    | @ssidLast a' _ htook => exact ⟨a', c.ssidLen, _, htook, by rw [if_neg (Nat.lt_irrefl _)]; exact hsw⟩
    | ssidLenErr h | ssidLen h | pwdLenErr h | pwdEmpty h | pwdLen h | pwdErr h | pwdPart h | pwdLast h =>
      exact absurd (h1.symm.trans h) (by decide)
  · intro a ws hnil
    refine run_ignored ?_ (by dsimp only; decide) ?_ (by dsimp only; decide)
    · exact fun h => absurd h (by dsimp only; decide)
    · intro _ w hw
      rw [hnil w hw]
      decide

theorem run_pwdParts (parts : List (List UInt8)) (h3 : c.step = 3) (hlen : c.pwdLen.toNat ≤ 64)
    (hlt : c.pwdCnt.toNat < c.pwdLen.toNat) (hparts : c.pwdCnt.toNat + parts.flatten.length = c.pwdLen.toNat) :
    ∃ a : ByteArr 64, c.run parts = some { c with pwd := a, pwdCnt := c.pwdLen, step := 4 } ∧
      a.val.take c.pwdLen.toNat = c.pwd.val.take c.pwdCnt.toNat ++ parts.flatten := by
  refine run_parts (fun a cnt => { c with pwd := a, pwdCnt := cnt })
    (fun a => { c with pwd := a, pwdCnt := c.pwdLen, step := 4 }) ?_ ?_ parts hlt hparts
  · intro a cnt w hfits
    obtain ⟨c', posts, hsw, hs⟩ := switchStep_pwdPart (c := { c with pwd := a, pwdCnt := cnt }) w h3 hlen
    cases hs with
    | ignored _ _ _ hne => exact absurd h3 hne
    | pwdErr _ hgt => exact absurd hgt (Nat.not_lt.mpr hfits)
    | @pwdPart a' cnt' _ htook hmore => exact ⟨a', cnt', _, htook, by rw [if_pos hmore]; exact hsw⟩
    | @pwdLast a' _ htook => exact ⟨a', c.pwdLen, _, htook, by rw [if_neg (Nat.lt_irrefl _)]; exact hsw⟩
    | ssidLenErr h | ssidLen h | ssidErr h | ssidPart h | ssidLast h | pwdLenErr h | pwdEmpty h | pwdLen h =>
      exact absurd (h3.symm.trans h) (by decide)
  · intro a ws _
    refine run_ignored ?_ (by dsimp only; decide) ?_ (by dsimp only; decide)
    · exact fun h => absurd h (by dsimp only; decide)
    · exact fun h => absurd h (by dsimp only; decide)

theorem switchStep_saysSsid {n : Nat} (h0 : c.step = 0) (hlenMsg : saysLength ssidTag om = some n) (hn : n ≤ 32) :
    (messageLen 5 om c.ssidLen).toNat = n ∧
      c.switchStep om = some ({ c with ssidLen := messageLen 5 om c.ssidLen, step := 1 }, false) := by
  have hlen : (messageLen 5 om c.ssidLen).toNat = n := messageLen_eq hlenMsg
  obtain ⟨c', posts, hsw, hs⟩ := switchStep_ssidMessage h0 (tag_prefix_of_saysLength hlenMsg)
  cases hs with
  | ignored hno => exact absurd (tag_prefix_of_saysLength hlenMsg) (hno h0)
  | ssidLenErr _ _ hbig => omega
  | ssidLen => exact ⟨hlen, hsw⟩
  | ssidErr h | ssidPart h | ssidLast h | pwdLenErr h | pwdEmpty h | pwdLen h | pwdErr h | pwdPart h | pwdLast h =>
    exact absurd (h0.symm.trans h) (by decide)

theorem switchStep_saysPwd {m : Nat} (h2 : c.step = 2) (hlenMsg : saysLength pwdTag om = some m)
    (hm : m = 0 ∨ 5 ≤ m ∧ m ≤ 64) : (messageLen 4 om c.pwdLen).toNat = m ∧
      c.switchStep om = some ({ c with pwdLen := messageLen 4 om c.pwdLen, step := if m = 0 then 4 else 3 }, false) := by
  have hlen : (messageLen 4 om c.pwdLen).toNat = m := messageLen_eq hlenMsg
  obtain ⟨c', posts, hsw, hs⟩ := switchStep_pwdMessage h2 (tag_prefix_of_saysLength hlenMsg)
  refine ⟨hlen, ?_⟩
  cases hs with
  | ignored _ _ hno => exact absurd (tag_prefix_of_saysLength hlenMsg) (hno h2)
  | pwdLenErr _ _ hbig => omega
  | pwdEmpty _ _ hempty =>
    have hzero : m = 0 := by rw [← hlen, hempty]; rfl
    rw [hempty, if_pos hzero]
    exact hsw
  | pwdLen _ _ h5 =>
    rw [if_neg (by omega)]
    exact hsw
  | ssidLenErr h | ssidLen h | ssidErr h | ssidPart h | ssidLast h | pwdErr h | pwdPart h | pwdLast h =>
    exact absurd (h2.symm.trans h) (by decide)

theorem run_ssidField (f : Field ssidTag) (hf : f.Complete) (hsize : 1 ≤ f.value.length ∧ f.value.length ≤ 32) :
    ∃ c, zero.run f.writes = some c ∧ c.step = 2 ∧ c.pwdCnt = 0 ∧ c.ssidLen.toNat = f.value.length ∧
      c.ssid.val.take c.ssidLen.toNat = f.value := by
  have hidle : zero.run f.idle = some zero :=
    run_ignored (fun _ => f.idle_ignored) (by decide) (fun h => absurd h (by decide)) (by decide)
  obtain ⟨hlen, hmsg⟩ := switchStep_saysSsid (c := zero) rfl hf hsize.2
  obtain ⟨a, hparts, ha⟩ := run_ssidParts (c := { zero with ssidLen := messageLen 5 f.msg zero.ssidLen, step := 1 })
    f.parts rfl (Nat.le_trans (Nat.le_of_eq hlen) hsize.2) (Nat.lt_of_lt_of_eq hsize.1 hlen.symm) (by
      show 0 + f.parts.flatten.length = _
      rw [Nat.zero_add]
      exact hlen.symm)
  refine ⟨{ zero with ssid := a, ssidLen := messageLen 5 f.msg 0, ssidCnt := messageLen 5 f.msg 0, step := 2 }, ?_, rfl,
    rfl, hlen, ha⟩
  unfold Field.writes
  rw [run_append, hidle]
  exact (run_cons hmsg _).trans hparts

theorem run_pwdField (f : Field pwdTag) (hf : f.Complete)
    (hsize : f.value.length = 0 ∨ 5 ≤ f.value.length ∧ f.value.length ≤ 64) (h2 : c.step = 2) (hcnt : c.pwdCnt = 0) :
    ∃ c', c.run f.writes = some c' ∧ c'.step = 4 ∧ c'.ssidLen = c.ssidLen ∧ c'.ssid = c.ssid ∧
      c'.pwdLen.toNat = f.value.length ∧ c'.pwd.val.take c'.pwdLen.toNat = f.value := by
  have hidle : c.run f.idle = some c :=
    run_ignored (fun h => absurd (h2.symm.trans h) (by decide)) (by rw [h2]; decide) (fun _ => f.idle_ignored)
      (by rw [h2]; decide)
  obtain ⟨hlen, hmsg⟩ := switchStep_saysPwd h2 hf hsize
  rcases hsize with hzero | hsize
  · rw [if_pos hzero] at hmsg
    refine ⟨{ c with pwdLen := messageLen 4 f.msg c.pwdLen, step := 4 }, ?_, rfl, rfl, rfl, hlen, ?_⟩
    · unfold Field.writes
      rw [run_append, hidle]
      refine (run_cons hmsg _).trans (run_ignored ?_ (by dsimp only; decide) ?_ (by dsimp only; decide))
      · exact fun h => absurd h (by dsimp only; decide)
      · exact fun h => absurd h (by dsimp only; decide)
    · dsimp only
      rw [hlen, List.eq_nil_of_length_eq_zero hzero]
      rfl
  · rw [if_neg (by omega)] at hmsg
    obtain ⟨a, hparts, ha⟩ := run_pwdParts (c := { c with pwdLen := messageLen 4 f.msg c.pwdLen, step := 3 })
      f.parts rfl (Nat.le_trans (Nat.le_of_eq hlen) hsize.2) (by
        show c.pwdCnt.toNat < (messageLen 4 f.msg c.pwdLen).toNat
        rw [hcnt, hlen]
        exact Nat.lt_of_lt_of_le (by decide) hsize.1) (by
        show c.pwdCnt.toNat + f.parts.flatten.length = (messageLen 4 f.msg c.pwdLen).toNat
        rw [hcnt, hlen]
        exact Nat.zero_add _)
    refine ⟨{ c with pwd := a, pwdLen := messageLen 4 f.msg c.pwdLen, pwdCnt := messageLen 4 f.msg c.pwdLen, step := 4 },
      ?_, rfl, rfl, rfl, hlen, ha.trans ?_⟩
    · unfold Field.writes
      rw [run_append, hidle]
      exact (run_cons hmsg _).trans hparts
    · show c.pwd.val.take c.pwdCnt.toNat ++ f.value = f.value
      rw [hcnt]
      rfl

theorem after_session (e : Session) : ∃ c, after e.writes = some c ∧ c.step = 4 ∧ e.Stored c := by
  obtain ⟨c, hssid, h2, hcnt, hlen, hval⟩ := run_ssidField e.ssid e.ssid_complete e.ssid_size
  obtain ⟨c', hpwd, h4, hlen', hval', hplen, hpval⟩ := run_pwdField e.pwd e.pwd_complete e.pwd_size h2 hcnt
  have hrest : c'.run e.rest = some c' :=
    run_ignored (fun h => absurd (h4.symm.trans h) (by decide)) (by rw [h4]; decide)
      (fun h => absurd (h4.symm.trans h) (by decide)) (by rw [h4]; decide)
  refine ⟨c', ?_, h4, ⟨?_, ?_, hplen, hpval⟩⟩
  · unfold after Session.writes
    rw [run_append, hssid, Option.bind_some, run_append, hpwd, Option.bind_some, hrest]
  · rw [hlen', hlen]
  · rw [hlen', hval', hval]

structure HasSsid (c : BleSmartCfg) (f : Field ssidTag) : Prop where
  complete : f.Complete
  size : 1 ≤ f.value.length ∧ f.value.length ≤ 32
  ssidLen : c.ssidLen.toNat = f.value.length
  ssid : c.ssid.val.take c.ssidLen.toNat = f.value

structure Stage (ws : List (List UInt8)) (c : BleSmartCfg) : Prop where
  small : c.ssidLen.toNat ≤ 32 ∧ c.pwdLen.toNat ≤ 64
  idle : c.step = 0 → ∀ w ∈ ws, ¬ssidTag <+: w
  ssid : c.step = 1 → ∃ f : Field ssidTag, f.writes = ws ∧ saysLength ssidTag f.msg = some c.ssidLen.toNat ∧
    1 ≤ c.ssidLen.toNat ∧ f.value = c.ssid.val.take c.ssidCnt.toNat
  gap : c.step = 2 → ∃ f, c.HasSsid f ∧ ∃ us, f.writes ++ us = ws ∧ ∀ w ∈ us, ¬pwdTag <+: w
  pwd : c.step = 3 → ∃ f, c.HasSsid f ∧ ∃ g : Field pwdTag, f.writes ++ g.writes = ws ∧
    saysLength pwdTag g.msg = some c.pwdLen.toNat ∧ 5 ≤ c.pwdLen.toNat ∧ g.value = c.pwd.val.take c.pwdCnt.toNat
  session : c.step = 4 → ∃ e : Session, e.writes = ws ∧ e.Stored c

theorem Stage.of_error {ws : List (List UInt8)} (hsmall : c.ssidLen.toNat ≤ 32 ∧ c.pwdLen.toNat ≤ 64)
    (herr : bleSmartCfgStatusBusy ≤ c.step) : Stage ws c := by
  have hne : ∀ k : UInt8, k < bleSmartCfgStatusBusy → c.step ≠ k := by
    rintro k hk rfl
    exact absurd herr (UInt8.not_le.mpr hk)
  exact ⟨hsmall, fun h => absurd h (hne 0 (by decide)), fun h => absurd h (hne 1 (by decide)),
    fun h => absurd h (hne 2 (by decide)), fun h => absurd h (hne 3 (by decide)), fun h => absurd h (hne 4 (by decide))⟩

theorem stage_zero : Stage [] zero :=
  ⟨⟨by decide, by decide⟩, fun _ w hw => absurd hw List.not_mem_nil, fun h => absurd h (by decide),
    fun h => absurd h (by decide), fun h => absurd h (by decide), fun h => absurd h (by decide)⟩

section
variable {ws : List (List UInt8)}

theorem Stage.of_ssid (h1 : c.step = 1) (hsmall : c.ssidLen.toNat ≤ 32 ∧ c.pwdLen.toNat ≤ 64) (f : Field ssidTag)
    (hws : f.writes = ws) (hlenMsg : saysLength ssidTag f.msg = some c.ssidLen.toNat) (hpos : 1 ≤ c.ssidLen.toNat)
    (hval : f.value = c.ssid.val.take c.ssidCnt.toNat) : Stage ws c :=
  ⟨hsmall, fun h => absurd (h1.symm.trans h) (by decide), fun _ => ⟨f, hws, hlenMsg, hpos, hval⟩,
    fun h => absurd (h1.symm.trans h) (by decide), fun h => absurd (h1.symm.trans h) (by decide),
    fun h => absurd (h1.symm.trans h) (by decide)⟩

theorem Stage.of_gap (h2 : c.step = 2) (hsmall : c.ssidLen.toNat ≤ 32 ∧ c.pwdLen.toNat ≤ 64) {f : Field ssidTag}
    (hf : c.HasSsid f) (hws : f.writes = ws) : Stage ws c :=
  ⟨hsmall, fun h => absurd (h2.symm.trans h) (by decide), fun h => absurd (h2.symm.trans h) (by decide),
    fun _ => ⟨f, hf, [], (List.append_nil _).trans hws, fun _ hw => absurd hw List.not_mem_nil⟩,
    fun h => absurd (h2.symm.trans h) (by decide), fun h => absurd (h2.symm.trans h) (by decide)⟩

theorem Stage.of_pwd (h3 : c.step = 3) (hsmall : c.ssidLen.toNat ≤ 32 ∧ c.pwdLen.toNat ≤ 64) {f : Field ssidTag}
    (hf : c.HasSsid f) (g : Field pwdTag) (hws : f.writes ++ g.writes = ws)
    (hlenMsg : saysLength pwdTag g.msg = some c.pwdLen.toNat) (hpos : 5 ≤ c.pwdLen.toNat)
    (hval : g.value = c.pwd.val.take c.pwdCnt.toNat) : Stage ws c :=
  ⟨hsmall, fun h => absurd (h3.symm.trans h) (by decide), fun h => absurd (h3.symm.trans h) (by decide),
    fun h => absurd (h3.symm.trans h) (by decide), fun _ => ⟨f, hf, g, hws, hlenMsg, hpos, hval⟩,
    fun h => absurd (h3.symm.trans h) (by decide)⟩

theorem Stage.of_session (h4 : c.step = 4) (hsmall : c.ssidLen.toNat ≤ 32 ∧ c.pwdLen.toNat ≤ 64) {f : Field ssidTag}
    (hf : c.HasSsid f) (g : Field pwdTag) (hws : f.writes ++ g.writes = ws) (hg : g.Complete)
    (hlen : c.pwdLen.toNat = g.value.length) (hsize : g.value.length = 0 ∨ 5 ≤ g.value.length)
    (hval : c.pwd.val.take c.pwdLen.toNat = g.value) : Stage ws c := by
  have hsize : g.value.length = 0 ∨ 5 ≤ g.value.length ∧ g.value.length ≤ 64 :=
    hsize.imp_right fun h5 => ⟨h5, by have := hsmall.2; omega⟩
  refine ⟨hsmall, fun h => absurd (h4.symm.trans h) (by decide), fun h => absurd (h4.symm.trans h) (by decide),
    fun h => absurd (h4.symm.trans h) (by decide), fun h => absurd (h4.symm.trans h) (by decide), fun _ => ?_⟩
  refine ⟨⟨f, g, [], hf.complete, hf.size, hg, hsize⟩, ?_, ⟨hf.ssidLen, hf.ssid, hlen, hval⟩⟩
  unfold Session.writes
  rw [List.append_nil]
  exact hws

theorem take_none {n : Nat} (a : ByteArr n) {cnt : UInt8} (h : cnt = 0) : ([] : List UInt8) = a.val.take cnt.toNat := by
  rw [h]
  rfl

theorem length_taken {n : Nat} {a : ByteArr n} {len : UInt8} {w : List UInt8} (h : a.val.take len.toNat = w)
    (hlen : len.toNat ≤ n) : w.length = len.toNat := by
  rw [← h, List.length_take, a.property]
  omega

theorem Stage.step (h : Stage ws c) (hb : c.Bounded) (hs : Switched c om c' posts)
    (hssid : c.step = 0 → ssidTag <+: om → ∃ n, saysLength ssidTag om = some n ∧ 1 ≤ n ∧ n ≤ 32)
    (hpwd : c.step = 2 → pwdTag <+: om → ∃ m, saysLength pwdTag om = some m ∧ m ≤ 64) : Stage (ws ++ [om]) c' := by
  obtain ⟨hsmall, hidle, hone, htwo, hthree, hfour⟩ := h
  cases hs with
  | ignored h0 h1 h2 h3 =>
    refine ⟨hsmall, fun h w hw => ?_, fun h => absurd h h1, fun h => ?_, fun h => absurd h h3, fun h => ?_⟩
    · rcases List.mem_append.mp hw with hw | hw
      · exact hidle h w hw
      · rw [List.mem_singleton.mp hw]
        exact h0 h
    · obtain ⟨f, hf, us, rfl, hus⟩ := htwo h
      refine ⟨f, hf, us ++ [om], (List.append_assoc _ _ _).symm, fun w hw => ?_⟩
      rcases List.mem_append.mp hw with hw | hw
      · exact hus w hw
      · rw [List.mem_singleton.mp hw]
        exact h2 h
    · obtain ⟨e, rfl, he⟩ := hfour h
      exact ⟨e.later om, e.writes_later om, ⟨he.ssidLen, he.ssid, he.pwdLen, he.pwd⟩⟩
  | ssidLenErr h0 htag hbig =>
    obtain ⟨n, hn, -, hle⟩ := hssid h0 htag
    have hlen : (messageLen 5 om c.ssidLen).toNat = n := messageLen_eq hn
    omega
  | ssidLen h0 htag hle =>
    obtain ⟨n, hn, hpos, -⟩ := hssid h0 htag
    have hlen : (messageLen 5 om c.ssidLen).toNat = n := messageLen_eq hn
    have hlenMsg : saysLength ssidTag om = some (messageLen 5 om c.ssidLen).toNat := by rw [hlen, hn]
    exact .of_ssid rfl ⟨hle, hsmall.2⟩ ⟨ws, om, [], hidle h0⟩ rfl hlenMsg (hlen ▸ hpos) (take_none _ (hb.ssidNone h0))
  | ssidErr h1 => exact .of_error hsmall (by dsimp only; decide)
  | @ssidPart a cnt h1 htook hmore =>
    obtain ⟨f, rfl, hlenMsg, hpos, hval⟩ := hone h1
    refine .of_ssid h1 hsmall (f.add om) (f.writes_add om) hlenMsg hpos ?_
    rw [f.value_add, hval]
    exact htook.bytes.symm
  | @ssidLast a h1 htook =>
    obtain ⟨f, rfl, hlenMsg, hpos, hval⟩ := hone h1
    have hval : a.val.take c.ssidLen.toNat = (f.add om).value := by rw [htook.bytes, f.value_add, hval]
    have hlen := length_taken hval hsmall.1
    have hcomplete : (f.add om).Complete := hlenMsg.trans (congrArg some hlen.symm)
    exact .of_gap rfl hsmall ⟨hcomplete, ⟨by omega, by omega⟩, hlen.symm, hval⟩ (f.writes_add om)
  | pwdLenErr h2 htag =>
    obtain ⟨m, hm, hle⟩ := hpwd h2 htag
    have hlen : (messageLen 4 om c.pwdLen).toNat = m := messageLen_eq hm
    exact .of_error ⟨hsmall.1, hlen ▸ hle⟩ (by dsimp only; decide)
  | pwdEmpty h2 htag hempty =>
    obtain ⟨f, hf, us, rfl, hus⟩ := htwo h2
    obtain ⟨m, hm, hle⟩ := hpwd h2 htag
    have hlen : (messageLen 4 om c.pwdLen).toNat = m := messageLen_eq hm
    have hzero : m = 0 := by rw [← hlen, hempty]; rfl
    refine .of_session rfl ⟨hsmall.1, Nat.zero_le _⟩ ⟨hf.complete, hf.size, hf.ssidLen, hf.ssid⟩ ⟨us, om, [], hus⟩ ?_ ?_ rfl
      (.inl rfl) rfl
    · exact (List.append_assoc _ _ _).symm
    · exact hm.trans (congrArg some hzero)
  | pwdLen h2 htag h5 hle =>
    obtain ⟨f, hf, us, rfl, hus⟩ := htwo h2
    obtain ⟨m, hm, -⟩ := hpwd h2 htag
    have hlen : (messageLen 4 om c.pwdLen).toNat = m := messageLen_eq hm
    have hlenMsg : saysLength pwdTag om = some (messageLen 4 om c.pwdLen).toNat := by rw [hlen, hm]
    exact .of_pwd rfl ⟨hsmall.1, hle⟩ ⟨hf.complete, hf.size, hf.ssidLen, hf.ssid⟩ ⟨us, om, [], hus⟩
      (List.append_assoc _ _ _).symm hlenMsg h5 (take_none _ (hb.pwdNone (.inr (.inr h2))))
  | pwdErr h3 => exact .of_error hsmall (by dsimp only; decide)
  | @pwdPart a cnt h3 htook hmore =>
    obtain ⟨f, hf, g, rfl, hlenMsg, hpos, hval⟩ := hthree h3
    refine .of_pwd h3 hsmall ⟨hf.complete, hf.size, hf.ssidLen, hf.ssid⟩ (g.add om) ?_ hlenMsg hpos ?_
    · rw [g.writes_add, List.append_assoc]
    · rw [g.value_add, hval]
      exact htook.bytes.symm
  | @pwdLast a h3 htook =>
    obtain ⟨f, hf, g, rfl, hlenMsg, hpos, hval⟩ := hthree h3
    have hval : a.val.take c.pwdLen.toNat = (g.add om).value := by rw [htook.bytes, g.value_add, hval]
    have hlen := length_taken hval hsmall.2
    have hcomplete : (g.add om).Complete := hlenMsg.trans (congrArg some hlen.symm)
    refine .of_session rfl hsmall ⟨hf.complete, hf.size, hf.ssidLen, hf.ssid⟩ (g.add om) ?_ hcomplete hlen.symm
      (.inr (by omega)) hval
    rw [g.writes_add, List.append_assoc]

end

end BleSmartCfg

/-- `ble_smart_info` is what the callback has collected; at step 4 the step may have moved on. -/
structure BleSmartCfg.Follows (c info : BleSmartCfg) : Prop where
  rest : info = { c with step := info.step }
  step : info.step = c.step ∨ c.step = 4 ∧ (info.step = bleSmartCfgSsidPwdTransEnd ∨ info.step = bleSmartCfgStatusEnd)

theorem BleSmartCfg.Follows.refl (c : BleSmartCfg) : c.Follows c := ⟨rfl, .inl rfl⟩

theorem BleSmartCfg.Follows.eq {c info : BleSmartCfg} (h : c.Follows info) (hne : c.step ≠ 4) : info = c := by
  have hstep := h.step.resolve_right fun h => hne h.1
  rw [h.rest, hstep]

namespace SmartCfg

open BleSmartCfg

structure Kept (s t : SmartCfg) : Prop where
  pc : t.pc = s.pc
  overrun : t.overrun = s.overrun
  assertFailed : t.assertFailed = s.assertFailed
  writes : t.writes = s.writes
  handed : t.handed = s.handed

variable {s t : SmartCfg} {om : List UInt8}

theorem notify_kept (s : SmartCfg) :
    s.notify.info = s.info ∧ s.Kept s.notify ∧ (0 < s.notify.sem → 0 < s.sem ∨ Released s.info.step) := by
  unfold notify
  split
  · exact ⟨rfl, ⟨rfl, rfl, rfl, rfl, rfl⟩, .inl⟩
  · split
    · next h =>
      refine ⟨rfl, ⟨rfl, rfl, rfl, rfl, rfl⟩, fun _ => .inr (.inr ?_)⟩
      rw [h]
      decide
    · split
      · next h => exact ⟨rfl, ⟨rfl, rfl, rfl, rfl, rfl⟩, fun _ => .inr (.inl h)⟩
      · split
        · exact ⟨rfl, ⟨rfl, rfl, rfl, rfl, rfl⟩, .inl⟩
        · exact ⟨rfl, ⟨rfl, rfl, rfl, rfl, rfl⟩, .inl⟩

theorem collect_kept {c : BleSmartCfg} {posts : Bool} (hsw : s.info.switchStep om = some (c, posts))
    (hs : Switched s.info om c posts) :
    (s.collect om).info = c ∧ s.Kept (s.collect om) ∧ (0 < (s.collect om).sem → 0 < s.sem ∨ Released c.step) := by
  unfold collect
  rw [hsw]
  dsimp only
  cases posts with
  | true =>
    obtain ⟨hinfo, hkept, -⟩ := notify_kept { s with info := c }.release
    exact ⟨hinfo, ⟨hkept.pc, hkept.overrun, hkept.assertFailed, hkept.writes, hkept.handed⟩, fun _ => .inr (Switched.released hs rfl)⟩
  | false =>
    obtain ⟨hinfo, hkept, hsem⟩ := notify_kept { s with info := c }
    exact ⟨hinfo, ⟨hkept.pc, hkept.overrun, hkept.assertFailed, hkept.writes, hkept.handed⟩, hsem⟩

/-- How a write moves a step after which the semaphore has been released. -/
def Onward (x y : UInt8) : Prop := y = x ∨ x = 4 ∧ y = bleSmartCfgStatusEnd

structure Accessed (s : SmartCfg) (om : List UInt8) (c : BleSmartCfg) (t : SmartCfg) : Prop where
  kept : Kept { s with writes := s.writes ++ [om] } t
  follows : c.Follows t.info
  sem : 0 < t.sem → 0 < s.sem ∨ Released t.info.step
  onward : Released s.info.step → Onward s.info.step t.info.step

theorem switchStep_released {c : BleSmartCfg} (h : Released c.step) (om : List UInt8) :
    c.switchStep om = some (c, false) ∧ Switched c om c false := by
  have hne : ∀ k : UInt8, k < 4 → c.step ≠ k := by
    rintro k hk rfl
    rcases h with h | h
    · rw [h] at hk
      exact absurd hk (by decide)
    · exact absurd (UInt8.lt_of_lt_of_le hk (UInt8.le_trans (by decide) h)) (UInt8.lt_irrefl _)
  have h0 : c.step = 0 → ¬ssidTag <+: om := fun h => absurd h (hne 0 (by decide))
  have h2 : c.step = 2 → ¬pwdTag <+: om := fun h => absurd h (hne 2 (by decide))
  have h1 := hne 1 (by decide)
  have h3 := hne 3 (by decide)
  exact ⟨switchStep_ignored h0 h1 h2 h3, .ignored h0 h1 h2 h3⟩

theorem bleSvcGattAccess_spec {c : BleSmartCfg} (hle : om.length ≤ 255) (hb : c.Bounded) (hf : c.Follows s.info) :
    ∃ c' posts, c.switchStep om = some (c', posts) ∧ Switched c om c' posts ∧ Accessed s om c' (s.bleSvcGattAccess om) := by
  unfold bleSvcGattAccess
  rw [if_neg (Nat.not_lt.mpr hle)]
  dsimp only
  split
  · next hrecv =>
    -- the peer has seen that the values have come
    have h4 : c.step = 4 := by
      rcases hf.step with h | ⟨h, -⟩
      · exact h.symm.trans hrecv.2
      · exact h
    obtain ⟨hsw, hs⟩ := switchStep_released (.inl h4) om
    refine ⟨c, false, hsw, hs, ?_⟩
    split
    case isFalse hne => exact absurd rfl hne
    have hbusy : bleSmartCfgStatusBusy ≤ bleSmartCfgStatusEnd := by decide
    refine ⟨⟨rfl, rfl, rfl, rfl, rfl⟩, ⟨?_, .inr ⟨h4, .inr rfl⟩⟩, fun _ => .inr (.inr hbusy), fun _ => .inr ⟨hrecv.2, rfl⟩⟩
    show { s.info with step := bleSmartCfgStatusEnd } = { c with step := bleSmartCfgStatusEnd }
    rw [hf.rest]
  · split
    · next hend =>
      have hend : s.info.step = bleSmartCfgStatusEnd := hend
      have hreleased : Released c.step := by
        rcases hf.step with h | ⟨h, -⟩
        · rw [← h, hend]
          exact .inr (by decide)
        · exact .inl h
      obtain ⟨hsw, hs⟩ := switchStep_released hreleased om
      exact ⟨c, false, hsw, hs, ⟨rfl, rfl, rfl, rfl, rfl⟩, hf, .inl, fun _ => .inl rfl⟩
    · by_cases h4 : c.step = 4
      · obtain ⟨hsw, hs⟩ := switchStep_released (.inl h4) om
        have hreleased : Released s.info.step := by
          rcases hf.step with h | ⟨-, h | h⟩
          · exact .inl (h.trans h4)
          · rw [h]
            exact .inr (by decide)
          · rw [h]
            exact .inr (by decide)
        obtain ⟨hsw', hs'⟩ := switchStep_released hreleased om
        obtain ⟨hinfo, hkept, hsem⟩ := collect_kept (s := { s with writes := s.writes ++ [om] }) hsw' hs'
        refine ⟨c, false, hsw, hs, hkept, ?_, fun h => ?_, fun _ => .inl (congrArg BleSmartCfg.step hinfo)⟩
        · rw [hinfo]
          exact hf
        · rw [hinfo]
          exact hsem h
      · have heq := hf.eq h4
        obtain ⟨c', posts, hsw, hs⟩ := hb.switched om
        refine ⟨c', posts, hsw, hs, ?_⟩
        rw [← heq] at hsw hs
        obtain ⟨hinfo, hkept, hsem⟩ := collect_kept (s := { s with writes := s.writes ++ [om] }) hsw hs
        refine ⟨hkept, hinfo ▸ .refl _, fun h => ?_, fun hreleased => ?_⟩
        · rw [hinfo]
          exact hsem h
        · rw [(switchStep_released hreleased om).1] at hsw
          cases hsw
          exact .inl (congrArg BleSmartCfg.step hinfo)

def AtPc (pc : SmtPc) (step : UInt8) : Prop :=
  match pc with
  | .compare => Released step
  | .indicate | .setTransEnd => step = 4 ∨ step = bleSmartCfgStatusEnd
  | .compareTransEnd | .compareEnd | .checkBusy => bleSmartCfgStatusBusy ≤ step
  | .wifiStatus => step = bleSmartCfgSsidPwdTransEnd
  | _ => True

theorem AtPc.onward {pc : SmtPc} {x y : UInt8} (h : AtPc pc x) (hxy : Released x → Onward x y) : AtPc pc y := by
  have hbusy : bleSmartCfgStatusBusy ≤ bleSmartCfgStatusEnd := by decide
  unfold AtPc at h ⊢
  split
  · rcases hxy h with rfl | ⟨-, rfl⟩
    · exact h
    · exact .inr hbusy
  · rcases hxy (h.imp_right (by rintro rfl; exact hbusy)) with rfl | ⟨-, rfl⟩
    · exact h
    · exact .inr rfl
  · rcases hxy (h.imp_right (by rintro rfl; exact hbusy)) with rfl | ⟨-, rfl⟩
    · exact h
    · exact .inr rfl
  · rcases hxy (.inr h) with rfl | ⟨-, rfl⟩
    · exact h
    · exact hbusy
  · rcases hxy (.inr h) with rfl | ⟨-, rfl⟩
    · exact h
    · exact hbusy
  · rcases hxy (.inr h) with rfl | ⟨-, rfl⟩
    · exact h
    · exact hbusy
  · rcases hxy (.inr (h ▸ by decide)) with rfl | ⟨h4, -⟩
    · exact h
    · exact absurd (h.symm.trans h4) (by decide)
  · trivial

/-- The steps that only the task and `"recv ok"` set. -/
def Late (step : UInt8) : Prop := step = bleSmartCfgSsidPwdTransEnd ∨ step = bleSmartCfgStatusEnd

theorem not_late {c c' : BleSmartCfg} {posts : Bool} (hs : Switched c om c' posts) (h : ¬Late c.step) : ¬Late c'.step := by
  cases hs with
  | ignored | ssidPart | pwdPart => exact h
  | _ =>
    unfold Late
    dsimp only
    decide

structure Collects (s : SmartCfg) (c : BleSmartCfg) : Prop where
  after : after s.writes = some c
  bounded : c.Bounded
  early : ¬Late c.step
  follows : c.Follows s.info

theorem Collects.four {c : BleSmartCfg} (h : s.Collects c) (hstep : s.info.step = 4 ∨ Late s.info.step) : c.step = 4 := by
  rcases h.follows.step with heq | ⟨h4, -⟩
  · rcases hstep with h4 | hlate
    · exact heq.symm.trans h4
    · exact absurd (heq ▸ hlate) h.early
  · exact h4

structure Inv (s : SmartCfg) : Prop where
  overrun : s.overrun = false
  asserts : s.assertFailed = false
  collects : ∃ c, s.Collects c
  sem : 0 < s.sem → Released s.info.step
  pc : AtPc s.pc s.info.step

theorem Inv.write (h : s.Inv) (om : List UInt8) : (s.bleSvcGattAccess om).Inv := by
  by_cases hle : om.length ≤ 255
  · obtain ⟨c, hc⟩ := h.collects
    obtain ⟨c', posts, hsw, hs, hkept, hfollows, hsem, honward⟩ := bleSvcGattAccess_spec hle hc.bounded hc.follows
    refine ⟨hkept.overrun.trans h.overrun, hkept.assertFailed.trans h.asserts, ⟨c', ?_⟩, fun hpos => ?_, ?_⟩
    · refine ⟨?_, hc.bounded.step hs, not_late hs hc.early, hfollows⟩
      rw [hkept.writes]
      exact after_write hc.after hsw
    · rcases hsem hpos with hpos | hreleased
      · rcases honward (h.sem hpos) with heq | ⟨-, hend⟩
        · rw [heq]
          exact h.sem hpos
        · rw [hend]
          exact .inr (by decide)
      · exact hreleased
    · rw [hkept.pc]
      exact h.pc.onward honward
  · unfold bleSvcGattAccess
    rw [if_pos (by omega)]
    exact h

theorem bleSmartCfgIndication_some {c : BleSmartCfg} (status : UInt8) (hssid : c.ssidLen.toNat ≤ 32)
    (hpwd : c.pwdLen.toNat ≤ 64) : ∃ ind, bleSmartCfgIndication status c = some ind ∧ ind.ssidLen = c.ssidLen ∧
      ind.ssid.val = c.ssid.val.take c.ssidLen.toNat ++ List.replicate (32 - c.ssidLen.toNat) 0 ∧
      ind.pwdLen = c.pwdLen ∧
      ind.pwd.val = c.pwd.val.take c.pwdLen.toNat ++ List.replicate (64 - c.pwdLen.toNat) 0 := by
  obtain ⟨ssid, hs, hsc, hsval⟩ := c.ssid.first_copy hssid
  obtain ⟨pwd, hp, hpc, hpval⟩ := c.pwd.first_copy hpwd
  refine ⟨⟨status, ssid, pwd, c.ssidLen, c.pwdLen⟩, ?_, rfl, hsval, rfl, hpval⟩
  unfold bleSmartCfgIndication
  rw [hs]
  dsimp only [bind, Option.bind]
  rw [hsc]
  dsimp only
  rw [hp]
  dsimp only
  rw [hpc]
  rfl

theorem Collects.setStep {c : BleSmartCfg} (h : s.Collects c) (h4 : c.step = 4) {step : UInt8} (hlate : Late step)
    (hwrites : t.writes = s.writes) (hinfo : t.info = { s.info with step := step }) : t.Collects c := by
  refine ⟨hwrites ▸ h.after, h.bounded, h.early, ⟨?_, ?_⟩⟩
  · rw [hinfo, h.follows.rest]
  · rw [hinfo]
    exact .inr ⟨h4, hlate⟩

theorem Inv.move (h : s.Inv) (hinfo : t.info = s.info) (hwrites : t.writes = s.writes) (hover : t.overrun = s.overrun)
    (hassert : t.assertFailed = s.assertFailed) (hsem : t.sem ≤ s.sem) (hpc : AtPc t.pc s.info.step) : t.Inv := by
  obtain ⟨c, hc⟩ := h.collects
  refine ⟨hover.trans h.overrun, hassert.trans h.asserts, ⟨c, ?_⟩, fun hpos => ?_, hinfo ▸ hpc⟩
  · exact ⟨hwrites ▸ hc.after, hc.bounded, hc.early, hinfo ▸ hc.follows⟩
  · rw [hinfo]
    exact h.sem (Nat.lt_of_lt_of_le hpos hsem)

theorem Collects.indication {c : BleSmartCfg} (h : s.Collects c) (h4 : c.step = 4) (status : UInt8) :
    ∃ ind, bleSmartCfgIndication status s.info = some ind ∧ ind.ssidLen = c.ssidLen ∧
      ind.ssid.val = c.ssid.val.take c.ssidLen.toNat ++ List.replicate (32 - c.ssidLen.toNat) 0 ∧
      ind.pwdLen = c.pwdLen ∧
      ind.pwd.val = c.pwd.val.take c.pwdLen.toNat ++ List.replicate (64 - c.pwdLen.toNat) 0 := by
  have hssid : c.ssidLen.toNat ≤ 32 := h.bounded.ssidLen.resolve_right (by rw [h4]; decide)
  have hpwd : c.pwdLen.toNat ≤ 64 := h.bounded.pwdLen.resolve_right (by rw [h4]; decide)
  rw [h.follows.rest]
  exact bleSmartCfgIndication_some (c := { c with step := s.info.step }) status hssid hpwd

theorem Inv.task (h : s.Inv) {ok : Bool} (ha : (SmtAct.task ok).Enabled s) : (s.bleSmartCfgTask ok).Inv := by
  obtain ⟨c, hc⟩ := h.collects
  have hpc := h.pc
  unfold bleSmartCfgTask
  split
  · exact h.move rfl rfl rfl rfl (Nat.zero_le _) trivial
  · refine h.move rfl rfl rfl rfl (Nat.le_refl _) ?_
    dsimp only
    split <;> trivial
  · refine h.move rfl rfl rfl rfl (Nat.le_refl _) ?_
    dsimp only
    split
    · trivial
    · next hend =>
      -- `rc = 0` without a token
      rw [Decidable.not_not.mp hend]
      exact .inr (by decide)
  · next hpend =>
    split
    · next hok => exact h.move rfl rfl rfl rfl (Nat.sub_le _ _) (h.sem (ha hpend hok))
    · exact h.move rfl rfl rfl rfl (Nat.le_refl _) trivial
  · next hcompare =>
    rw [hcompare] at hpc
    refine h.move rfl rfl rfl rfl (Nat.le_refl _) ?_
    dsimp only
    split
    · next h4 => exact .inl h4
    · next hne => exact hpc.resolve_left hne
  · next hindicate =>
    rw [hindicate] at hpc
    obtain ⟨ind, hind, -⟩ := hc.indication (hc.four (hpc.imp_right .inr)) bleSmartCfgSsidPwdTransEnd
    rw [hind]
    exact h.move rfl rfl rfl rfl (Nat.le_refl _) hpc
  · next hset =>
    rw [hset] at hpc
    have h4 := hc.four (hpc.imp_right .inr)
    exact ⟨h.overrun, h.asserts, ⟨c, hc.setStep h4 (.inl rfl) rfl rfl⟩, fun _ => .inr (by dsimp only; decide), trivial⟩
  · next hcompare =>
    rw [hcompare] at hpc
    refine h.move rfl rfl rfl rfl (Nat.le_refl _) ?_
    dsimp only
    split
    · next hend => exact hend
    · exact hpc
  · next hwifi =>
    rw [hwifi] at hpc
    split
    · have h4 := hc.four (.inr (.inl hpc))
      exact ⟨h.overrun, h.asserts, ⟨c, hc.setStep h4 (.inr rfl) rfl rfl⟩, fun _ => .inr (by dsimp only; decide), trivial⟩
    · exact h.move rfl rfl rfl rfl (Nat.le_refl _) trivial
  · next hcompare =>
    rw [hcompare] at hpc
    refine h.move rfl rfl rfl rfl (Nat.le_refl _) ?_
    dsimp only
    split
    · trivial
    · exact hpc
  · next hcheck =>
    rw [hcheck] at hpc
    have hbusy : bleSmartCfgStatusBusy ≤ s.info.step := hpc
    rw [if_pos hbusy]
    exact h.move rfl rfl rfl rfl (Nat.le_refl _) trivial
  · refine h.move rfl rfl rfl rfl (Nat.le_refl _) ?_
    dsimp only
    split <;> trivial
  · exact h

theorem Inv.step (h : s.Inv) {a : SmtAct} (ha : a.Enabled s) : (a.next s).Inv := by
  cases a with
  | write om => exact h.write om
  | task ok => exact h.task ha
  | quit => exact h.move rfl rfl rfl rfl (Nat.le_refl _) h.pc

theorem inv_start : bleSmartCfgStartup.Inv :=
  ⟨rfl, rfl, ⟨.zero, rfl, bounded_zero, by unfold Late; decide, .refl _⟩, fun h => absurd h (Nat.lt_irrefl 0), trivial⟩

structure Heard (s : SmartCfg) : Prop where
  stage : ∀ c, s.Collects c → Stage s.writes c
  handed : ∀ ind ∈ s.handed, ∃ e : Session, e.writes = s.writes ∧ e.Carried ind

theorem Heard.write (h : s.Heard) (hI : s.Inv) (hC : (SmtAct.write om).Clean s) : (s.bleSvcGattAccess om).Heard := by
  by_cases hle : om.length ≤ 255
  · obtain ⟨c, hc⟩ := hI.collects
    obtain ⟨c', posts, hsw, hs, hkept, -⟩ := bleSvcGattAccess_spec hle hc.bounded hc.follows
    have hsame : ∀ k : UInt8, k ≠ 4 → c.step = k → s.info.step = k := by
      intro k hk hstep
      rw [hc.follows.eq (by rw [hstep]; exact hk), hstep]
    refine ⟨fun d hd => ?_, fun ind hind => ?_⟩
    · have hd : d = c' := by
        have := hd.after
        rw [hkept.writes] at this
        cases this.symm.trans (after_write hc.after hsw)
        rfl
      subst hd
      rw [hkept.writes]
      refine (h.stage c hc).step hc.bounded hs (fun h0 htag => ?_) fun h2 htag => ?_
      · obtain ⟨n, hn, hrange⟩ := Option.any_eq_true _ _ |>.mp (hC.1 (hsame 0 (by decide) h0) htag)
        exact ⟨n, hn, of_decide_eq_true hrange⟩
      · obtain ⟨m, hm, hrange⟩ := Option.any_eq_true _ _ |>.mp (hC.2 (hsame 2 (by decide) h2) htag)
        exact ⟨m, hm, of_decide_eq_true hrange⟩
    · rw [hkept.handed] at hind
      obtain ⟨e, he, hcarried⟩ := h.handed ind hind
      refine ⟨e.later om, ?_, ⟨hcarried.ssidLen, hcarried.ssid, hcarried.pwdLen, hcarried.pwd⟩⟩
      rw [hkept.writes, e.writes_later, he]
  · unfold bleSvcGattAccess
    rw [if_pos (by omega)]
    exact h

theorem Heard.move (h : s.Heard) (hI : s.Inv) (hwrites : t.writes = s.writes) (hhanded : t.handed = s.handed) :
    t.Heard := by
  obtain ⟨c, hc⟩ := hI.collects
  refine ⟨fun d hd => ?_, fun ind hind => ?_⟩
  · have hd : d = c := by
      have := hd.after
      rw [hwrites] at this
      cases this.symm.trans hc.after
      rfl
    subst hd
    rw [hwrites]
    exact h.stage d hc
  · rw [hhanded] at hind
    rw [hwrites]
    exact h.handed ind hind

theorem Heard.handOver (h : s.Heard) {c : BleSmartCfg} (hc : s.Collects c) (h4 : c.step = 4) {ind : WsmBleSmtInd}
    {status : UInt8} (hind : bleSmartCfgIndication status s.info = some ind) :
    ∃ e : Session, e.writes = s.writes ∧ e.Carried ind := by
  obtain ⟨e, he, hstored⟩ := (h.stage c hc).session h4
  obtain ⟨ind', hind', hsl, hs, hpl, hp⟩ := hc.indication h4 status
  cases hind.symm.trans hind'
  refine ⟨e, he, ⟨?_, ?_, ?_, ?_⟩⟩
  · rw [hsl, hstored.ssidLen]
  · rw [hs, hstored.ssid, hstored.ssidLen]
  · rw [hpl, hstored.pwdLen]
  · rw [hp, hstored.pwd, hstored.pwdLen]

theorem Heard.task (h : s.Heard) (hI : s.Inv) (ok : Bool) : (s.bleSmartCfgTask ok).Heard := by
  have hwrites : (s.bleSmartCfgTask ok).writes = s.writes := by
    unfold bleSmartCfgTask
    split <;> first | rfl | (split <;> rfl)
  by_cases hpc : s.pc = .indicate
  · obtain ⟨c, hc⟩ := hI.collects
    have hstep := hI.pc
    rw [hpc] at hstep
    obtain ⟨ind, hind, -⟩ := hc.indication (hc.four (hstep.imp_right .inr)) bleSmartCfgSsidPwdTransEnd
    have heq : s.bleSmartCfgTask ok = { s with handed := s.handed ++ [ind], pc := .setTransEnd } := by
      unfold bleSmartCfgTask
      rw [hpc, hind]
    rw [heq]
    refine ⟨fun d hd => h.stage d ⟨hd.after, hd.bounded, hd.early, hd.follows⟩, fun ind' hind' => ?_⟩
    rcases List.mem_append.mp hind' with hold | hnew
    · exact h.handed ind' hold
    · rw [List.mem_singleton.mp hnew]
      exact h.handOver hc (hc.four (hstep.imp_right .inr)) hind
  · have hhanded : (s.bleSmartCfgTask ok).handed = s.handed := by
      unfold bleSmartCfgTask
      split <;> first | rfl | (split <;> rfl) | contradiction
    exact h.move hI hwrites hhanded

theorem Heard.step (h : s.Heard) (hI : s.Inv) {a : SmtAct} (hC : a.Clean s) : (a.next s).Heard := by
  cases a with
  | write om => exact h.write hI hC
  | task ok => exact h.task hI ok
  | quit => exact h.move hI rfl rfl

theorem heard_start : bleSmartCfgStartup.Heard := by
  refine ⟨fun c hc => ?_, fun ind hind => absurd hind List.not_mem_nil⟩
  cases hc.after
  exact stage_zero

theorem Heard.provisions (h : s.Heard) (hI : s.Inv) : s.Provisions := by
  obtain ⟨c, hc⟩ := hI.collects
  have hstage := h.stage c hc
  obtain ⟨hsl, hpl⟩ := hstage.small
  refine ⟨?_, ?_, fun h4 => ?_, h.handed⟩
  · rw [hc.follows.rest]
    exact ⟨UInt8.le_iff_toNat_le.mpr hc.bounded.ssidCnt, UInt8.le_iff_toNat_le.mpr hsl⟩
  · rw [hc.follows.rest]
    exact ⟨UInt8.le_iff_toNat_le.mpr hc.bounded.pwdCnt, UInt8.le_iff_toNat_le.mpr hpl⟩
  · obtain ⟨e, he, hstored⟩ := hstage.session (hc.four (.inl h4))
    refine ⟨e, he, ?_⟩
    rw [hc.follows.rest]
    exact ⟨hstored.ssidLen, hstored.ssid, hstored.pwdLen, hstored.pwd⟩

end SmartCfg

/-- In every run no copy leaves its array and the `assert` of the task holds; a session is accepted, with its values;
and if the messages are clean, what is handed over is what a session says. -/
theorem smartCfg_provisions {l : List (SmartCfg × SmtAct)} {s : SmartCfg} (h : Path smartCfgs bleSmartCfgStartup l s) :
    (s.overrun = false ∧ s.assertFailed = false) ∧
      (∀ e : Session, e.writes = s.writes → e.Stored s.info ∧
        (s.info.step = 4 ∨ s.info.step = bleSmartCfgSsidPwdTransEnd ∨ s.info.step = bleSmartCfgStatusEnd)) ∧
      ((∀ p ∈ l, p.2.Clean p.1) → s.Provisions) := by
  have hI : s.Inv := by
    apply h.invariant (I := SmartCfg.Inv)
    · rintro s a _ hI ⟨ha, rfl⟩
      exact hI.step ha
    · exact SmartCfg.inv_start
  refine ⟨⟨hI.overrun, hI.asserts⟩, fun e he => ?_, fun hC => ?_⟩
  · obtain ⟨c, hc⟩ := hI.collects
    obtain ⟨d, hd, h4, hstored⟩ := BleSmartCfg.after_session e
    rw [he] at hd
    cases hd.symm.trans hc.after
    refine ⟨?_, ?_⟩
    · rw [hc.follows.rest]
      exact ⟨hstored.ssidLen, hstored.ssid, hstored.pwdLen, hstored.pwd⟩
    · rcases hc.follows.step with heq | ⟨-, hlate⟩
      · exact .inl (heq.trans h4)
      · exact .inr hlate
  · have hboth : s.Inv ∧ s.Heard := by
      apply h.keep (C := fun s a => a.Clean s) (I := fun s => s.Inv ∧ s.Heard)
      · rintro s a _ ⟨hI, hh⟩ ⟨ha, rfl⟩ hC
        exact ⟨hI.step ha, hh.step hI hC⟩
      · exact hC
      · exact ⟨SmartCfg.inv_start, SmartCfg.heard_start⟩
    exact hboth.2.provisions hboth.1

/-- A name of five bytes comes in two parts and a password of six in one, and both are handed over. -/
theorem smartCfg_provisions_home :
    let acts : List SmtAct := [.task true, .task true, .task true, .write (ssidTag ++ [0x3a, 0x35]),
      .write [0x68, 0x6f], .write [0x6d, 0x65, 0x31], .write [0x3f], .write (pwdTag ++ [0x3a, 0x30, 0x36]),
      .write [0x31, 0x32, 0x33, 0x34, 0x35, 0x36], .task true, .task true, .task true]
    (acts.foldl SmtAct.next bleSmartCfgStartup).handed.length = 1 ∧
      (acts.foldl SmtAct.next bleSmartCfgStartup).Provisions := by
  intro acts
  have hfires : Fires (fun s a => a.Enabled s) SmtAct.next bleSmartCfgStartup acts := by decide +kernel
  exact ⟨by decide +kernel, (smartCfg_provisions (Path.ofFires hfires)).2.2 (by decide +kernel)⟩

/-- The bare words hand over an empty name. -/
theorem smartCfg_hands_nothing :
    ∃ l s, Path smartCfgs bleSmartCfgStartup l s ∧ s.handed ≠ [] ∧ ¬∃ e : Session, e.writes = s.writes ∧
      ∀ ind ∈ s.handed, e.Carried ind := by
  have hfires : Fires (fun s a => a.Enabled s) SmtAct.next bleSmartCfgStartup
      [.task true, .task true, .task true, .write ssidTag, .write [], .write pwdTag, .task true, .task true,
        .task true] := by decide +kernel
  refine ⟨_, _, Path.ofFires hfires, by decide +kernel, ?_⟩
  rintro ⟨e, -, he⟩
  have hlen := (he ⟨bleSmartCfgSsidPwdTransEnd, .zero 32, .zero 64, 0, 0⟩ (by decide +kernel)).ssidLen
  have hpos := e.ssid_size.1
  rw [← hlen] at hpos
  exact absurd hpos (by decide)

end AtbmWifi
