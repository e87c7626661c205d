import Mathlib.Data.Nat.Bitwise
import Mathlib.Tactic.Positivity
import Mathlib.Tactic.Zify
/-!
# Pcimem — the BAR access utility (`guest/pcie-vip/user/pcie-vip-pcimem.c`)

`main` reads its arguments, checks the access against the size of BAR 0, and maps the pages it needs.  What the system
answers is data: the numbers in the `resource` file, whether `resource0` opens, the page size, and whether the mapping
is granted.

The range check is on the access, the length of the mapping is `page_size + offset - page_offset`: one page where the
offset begins a page, and two pages anywhere else.  So what is asked for lies inside the BAR unless the access is in the
last page and not at its beginning (`mapping_inside_iff`).
-/
namespace Vip
namespace Pcimem

/-! ## Numbers -/

def isspace (c : Char) : Bool := c == ' ' || ('\t' ≤ c && c ≤ '\r')

def digitOf (base : Nat) (c : Char) : Option Nat :=
  let d :=
    if '0' ≤ c ∧ c ≤ '9' then some (c.toNat - '0'.toNat)
    else if 'a' ≤ c ∧ c ≤ 'z' then some (c.toNat - 'a'.toNat + 10)
    else if 'A' ≤ c ∧ c ≤ 'Z' then some (c.toNat - 'A'.toNat + 10)
    else none
  d.filter (· < base)

/-- The value of the digits in front, after `v`, and what follows them. -/
def digits (base : Nat) : Nat → List Char → Nat × List Char
  | v, []      => (v, [])
  | v, c :: cs =>
    match digitOf base c with
    | some d => digits base (v * base + d) cs
    | none   => (v, c :: cs)

structure Strtoull where
  value : UInt64
  range : Bool
  rest  : List Char
  deriving DecidableEq, Repr

/-- The prefix says the base: 16, 8 or 10.  `0x` before anything but a digit is an octal zero. -/
def baseOf : List Char → Nat × List Char
  | '0' :: x :: c :: cs =>
    if (x == 'x' || x == 'X') && (digitOf 16 c).isSome then (16, c :: cs) else (8, '0' :: x :: c :: cs)
  | '0' :: cs           => (8, '0' :: cs)
  | cs                  => (10, cs)

/-- `strtoull(text, &end, 0)`: `range` is ERANGE, `rest` what `end` points to.  A minus sign negates modulo 2^64. -/
def strtoull (text : List Char) : Strtoull :=
  let s := text.dropWhile isspace
  let signed : Bool × List Char :=
    match s with
    | '-' :: cs => (true, cs)
    | '+' :: cs => (false, cs)
    | cs        => (false, cs)
  let base := baseOf signed.2
  let d := digits base.1 0 base.2
  if d.2.length = base.2.length then ⟨0, false, text⟩
  else if 2 ^ 64 ≤ d.1 then ⟨0xffffffffffffffff, true, d.2⟩
  else ⟨if signed.1 then -UInt64.ofNat d.1 else UInt64.ofNat d.1, false, d.2⟩

def parseU64 (text : String) : Option UInt64 :=
  let r := strtoull text.toList
  if r.range || r.rest ≠ [] then none else some r.value

/-! ## The system -/

structure Mapping where
  length : UInt64
  offset : UInt64
  deriving DecidableEq, Repr

structure System where
  /-- What `fscanf` reads from the `resource` file: the start, the end and the flags of BAR 0. -/
  resource : Option (UInt64 × UInt64 × UInt64)
  opens    : Bool := true
  pageSize : Int64 := 4096
  grants   : Mapping → Bool := fun _ => true

def barSize (sys : System) : Option UInt64 :=
  match sys.resource with
  | none                 => none
  | some (start, end_, _) => if end_ < start then none else some (end_ - start + 1)

/-! ## main -/

inductive Failure where
  | usage
  | notNumeric
  | badWidth
  | misaligned (offset bytes : UInt64)
  | outOfRange (bdf : String) (offset : UInt64)
  | cannotOpen
  | noPageSize
  | cannotMap
  deriving DecidableEq, Repr

def Failure.code : Failure → Nat
  | .usage | .notNumeric | .badWidth | .misaligned _ _ => 2
  | .outOfRange _ _ | .cannotOpen | .noPageSize | .cannotMap => 1

def hex (v : UInt64) : String := String.ofList (Nat.toDigits 16 v.toNat)

/-- The texts of `main`; `usage` and `perror` have their own. -/
def Failure.message : Failure → Option String
  | .notNumeric              => some "invalid numeric argument\n"
  | .badWidth                => some "width must be 8, 16, 32, or 64\n"
  | .misaligned offset bytes =>
    some ("offset 0x" ++ hex offset ++ " is not aligned to " ++ toString bytes.toNat ++ " bytes\n")
  | .outOfRange bdf offset   => some ("BAR0 range check failed for " ++ bdf ++ " offset 0x" ++ hex offset ++ "\n")
  | .noPageSize              => some "cannot determine page size\n"
  | _                        => none

structure Access where
  write   : Bool
  mapping : Mapping
  place   : UInt64
  bytes   : UInt64
  value   : UInt64
  deriving DecidableEq, Repr

def pageOffset (pageSize : Int64) (offset : UInt64) : UInt64 := offset &&& ~~~(pageSize.toUInt64 - 1)

def mappingOf (pageSize : Int64) (offset : UInt64) : Mapping :=
  ⟨pageSize.toUInt64 + offset - pageOffset pageSize offset, pageOffset pageSize offset⟩

def checkAccess (bdf : String) (size : Option UInt64) (offset width : UInt64) : Except Failure UInt64 :=
  if width ≠ 8 ∧ width ≠ 16 ∧ width ≠ 32 ∧ width ≠ 64 then .error .badWidth
  else
    let bytes := width / 8
    if offset % bytes ≠ 0 then .error (.misaligned offset bytes)
    else
      match size with
      | none      => .error (.outOfRange bdf offset)
      | some size => if offset > size ∨ bytes > size - offset then .error (.outOfRange bdf offset) else .ok bytes

/-- From `open` on. -/
def mapAccess (sys : System) (write : Bool) (offset bytes value : UInt64) : Except Failure Access :=
  if !sys.opens then .error .cannotOpen
  else if sys.pageSize ≤ 0 then .error .noPageSize
  else
    let m := mappingOf sys.pageSize offset
    if !sys.grants m then .error .cannotMap
    else .ok ⟨write, m, offset - m.offset, bytes, value⟩

/-- The words of the command line after the program's name. -/
def main (sys : System) (argv : List String) : Except Failure Access :=
  match argv with
  | bdf :: op :: offsetText :: widthText :: more =>
    if more.length > 1 then .error .usage
    else if op ≠ "read" ∧ op ≠ "write" then .error .usage
    else
      match parseU64 offsetText, parseU64 widthText, more.head?.map parseU64 with
      | some offset, some width, value =>
        if value = some none then .error .notNumeric
        else
          match checkAccess bdf (barSize sys) offset width with
          | .error e  => .error e
          | .ok bytes =>
            if more.length = 0 ∧ op ≠ "read" then .error .usage
            else if more.length = 1 ∧ op ≠ "write" then .error .usage
            else mapAccess sys (op == "write") offset bytes ((value.getD (some 0)).getD 0)
      | _, _, _ => .error .notNumeric
  | _ => .error .usage

/-! ## The pages of a mapping -/

/-- The bytes that `mmap` maps: whole pages. -/
def roundUp (n pageSize : Nat) : Nat := (n + pageSize - 1) / pageSize * pageSize

structure Maps (m : Mapping) (pageSize size offset bytes : Nat) : Prop where
  inside : m.offset.toNat + roundUp m.length.toNat pageSize ≤ size
  first  : m.offset.toNat ≤ offset
  last   : offset + bytes ≤ m.offset.toNat + roundUp m.length.toNat pageSize

section Pages

variable {pageSize : Int64} {k : Nat}

theorem toNat_pageSize (hp : pageSize.toInt = 2 ^ k) : pageSize.toUInt64.toNat = 2 ^ k ∧ 2 ^ k < 2 ^ 63 := by
  have hcond : pageSize.toInt =
      if 2 * pageSize.toUInt64.toNat < 2 ^ 64 then (pageSize.toUInt64.toNat : Int)
      else pageSize.toUInt64.toNat - (2 ^ 64 : Nat) := BitVec.toInt_eq_toNat_cond pageSize.toBitVec
  have hlt := pageSize.toUInt64.toNat_lt
  have hpos : (0 : Int) < 2 ^ k := by positivity
  rw [hp] at hcond
  split at hcond
  · have hnat : pageSize.toUInt64.toNat = 2 ^ k := by
      zify
      exact hcond.symm
    exact ⟨hnat, by omega⟩
  · omega

theorem toNat_pageOffset (hp : pageSize.toInt = 2 ^ k) (offset : UInt64) :
    (pageOffset pageSize offset).toNat = offset.toNat / 2 ^ k * 2 ^ k := by
  obtain ⟨hnat, hlt⟩ := toNat_pageSize hp
  have hone : (pageSize.toUInt64 - 1).toNat = 2 ^ k - 1 := by
    have hle : (1 : UInt64) ≤ pageSize.toUInt64 := by
      rw [UInt64.le_iff_toNat_le, hnat]
      exact Nat.one_le_two_pow
    rw [UInt64.toNat_sub_of_le _ _ hle, hnat]
    rfl
  have hpos := Nat.two_pow_pos k
  apply Nat.eq_of_testBit_eq
  intro i
  have hmask : (~~~(pageSize.toUInt64 - 1)).toNat = 2 ^ 64 - (2 ^ k - 1 + 1) := by
    rw [UInt64.toNat_not, hone, UInt64.size]
    omega
  rw [pageOffset, UInt64.toNat_and, hmask, Nat.testBit_and, Nat.testBit_two_pow_sub_succ (by omega),
    Nat.testBit_two_pow_sub_one, Nat.testBit_mul_two_pow, Nat.testBit_div_two_pow]
  by_cases hi : i < k
  · simp [hi]
  · have hadd : i - k + k = i := by omega
    rw [hadd, decide_eq_true (show k ≤ i by omega), decide_eq_false hi, Bool.not_false, Bool.and_true, Bool.true_and]
    by_cases h64 : i < 64
    · rw [decide_eq_true h64, Bool.and_true]
    · have hle : 2 ^ 64 ≤ 2 ^ i := Nat.pow_le_pow_right (by decide) (by omega)
      rw [Nat.testBit_lt_two_pow (Nat.lt_of_lt_of_le offset.toNat_lt hle), Bool.false_and]

theorem toNat_length (hp : pageSize.toInt = 2 ^ k) (offset : UInt64) :
    (mappingOf pageSize offset).length.toNat = 2 ^ k + offset.toNat % 2 ^ k := by
  obtain ⟨hnat, hlt⟩ := toNat_pageSize hp
  have hoff := toNat_pageOffset hp offset
  have hdiv := Nat.div_add_mod' offset.toNat (2 ^ k)
  have hmod := Nat.mod_lt offset.toNat (Nat.two_pow_pos k)
  have hbound := offset.toNat_lt
  rw [mappingOf, UInt64.toNat_sub, UInt64.toNat_add, hnat, hoff]
  omega

theorem roundUp_length (hp : pageSize.toInt = 2 ^ k) (offset : UInt64) :
    roundUp (mappingOf pageSize offset).length.toNat (2 ^ k) =
      if offset.toNat % 2 ^ k = 0 then 2 ^ k else 2 * 2 ^ k := by
  have hpos := Nat.two_pow_pos k
  have hmod := Nat.mod_lt offset.toNat hpos
  rw [toNat_length hp, roundUp]
  split
  · rename_i h0
    rw [h0, Nat.div_eq_of_lt_le (k := 1) (by omega) (by omega), Nat.one_mul]
  · rename_i h0
    rw [Nat.div_eq_of_lt_le (k := 2) (by omega) (by omega)]

end Pages

/-! ## Which accesses can be mapped -/

theorem checkAccess_ok {bdf : String} {size offset width bytes : UInt64}
    (h : checkAccess bdf (some size) offset width = .ok bytes) :
    (bytes.toNat = 1 ∨ bytes.toNat = 2 ∨ bytes.toNat = 4 ∨ bytes.toNat = 8) ∧
      offset.toNat % bytes.toNat = 0 ∧ offset.toNat + bytes.toNat ≤ size.toNat := by
  unfold checkAccess at h
  split at h
  · cases h
  rename_i hwidth
  dsimp only at h
  split at h
  · cases h
  rename_i halign
  split at h
  · cases h
  rename_i hrange
  cases h
  rw [not_or, UInt64.not_lt, UInt64.not_lt] at hrange
  have hsize := hrange.2
  rw [UInt64.le_iff_toNat_le, UInt64.toNat_sub_of_le _ _ hrange.1] at hsize
  have hoff := UInt64.le_iff_toNat_le.1 hrange.1
  refine ⟨?_, ?_, by omega⟩
  · have hcases : width = 8 ∨ width = 16 ∨ width = 32 ∨ width = 64 := by
      by_contra hne
      simp only [not_or] at hne
      exact hwidth hne
    rcases hcases with rfl | rfl | rfl | rfl <;> decide
  · have hzero := congrArg UInt64.toNat (not_not.1 halign)
    rwa [UInt64.toNat_mod] at hzero

theorem access_in_page {k offset bytes : Nat} (hk : 8 ≤ 2 ^ k)
    (hbytes : bytes = 1 ∨ bytes = 2 ∨ bytes = 4 ∨ bytes = 8) (halign : offset % bytes = 0) :
    offset % 2 ^ k + bytes ≤ 2 ^ k := by
  have hdvd : bytes ∣ 2 ^ k := by
    have h3 : 3 ≤ k := (Nat.pow_le_pow_iff_right (show 1 < 2 by decide)).1 hk
    refine Nat.dvd_trans ?_ (Nat.pow_dvd_pow 2 h3)
    rcases hbytes with rfl | rfl | rfl | rfl <;> decide
  have hrem : offset % 2 ^ k % bytes = 0 := by rw [Nat.mod_mod_of_dvd _ hdvd, halign]
  obtain ⟨c, hc⟩ := hdvd
  obtain ⟨d, hd⟩ := Nat.dvd_of_mod_eq_zero hrem
  have hlt := Nat.mod_lt offset (Nat.two_pow_pos k)
  rw [hd, hc] at hlt
  rw [hd, hc, ← Nat.mul_succ]
  exact Nat.mul_le_mul_left _ (Nat.lt_of_mul_lt_mul_left hlt)

section Admitted

variable {pageSize : Int64} {k : Nat} {bdf : String} {size offset width bytes : UInt64}

theorem pages_inside_iff (hp : pageSize.toInt = 2 ^ k) (hsize : size.toNat % 2 ^ k = 0)
    (hok : checkAccess bdf (some size) offset width = .ok bytes) :
    (mappingOf pageSize offset).offset.toNat + roundUp (mappingOf pageSize offset).length.toNat (2 ^ k) ≤ size.toNat ↔
      offset.toNat % 2 ^ k = 0 ∨ offset.toNat / 2 ^ k + 1 < size.toNat / 2 ^ k := by
  obtain ⟨hbytes, -, hrange⟩ := checkAccess_ok hok
  have hpage : (mappingOf pageSize offset).offset.toNat = offset.toNat / 2 ^ k * 2 ^ k := toNat_pageOffset hp offset
  have hdiv := Nat.div_add_mod' offset.toNat (2 ^ k)
  obtain ⟨pages, hpages⟩ := Nat.dvd_of_mod_eq_zero hsize
  rw [hpages, Nat.mul_comm] at hrange
  have hin : offset.toNat / 2 ^ k < pages := by
    refine Nat.lt_of_mul_lt_mul_right (a := 2 ^ k) ?_
    omega
  rw [hpage, roundUp_length hp, hpages, Nat.mul_div_cancel_left _ (Nat.two_pow_pos k), Nat.mul_comm _ pages]
  split
  · rename_i h0
    rw [← Nat.succ_mul]
    exact iff_of_true (Nat.mul_le_mul_right _ hin) (.inl h0)
  · rename_i h0
    rw [or_iff_right h0, ← Nat.add_mul, Nat.mul_le_mul_right_iff (Nat.two_pow_pos k)]
    exact Iff.rfl

/-- **The pages of an admitted access lie inside the BAR and hold it exactly if its offset begins a page or the page
after its own is still in the BAR.** -/
theorem mapping_inside_iff (hp : pageSize.toInt = 2 ^ k) (hk : 8 ≤ 2 ^ k) (hsize : size.toNat % 2 ^ k = 0)
    (hok : checkAccess bdf (some size) offset width = .ok bytes) :
    Maps (mappingOf pageSize offset) (2 ^ k) size.toNat offset.toNat bytes.toNat ↔
      offset.toNat % 2 ^ k = 0 ∨ offset.toNat / 2 ^ k + 1 < size.toNat / 2 ^ k := by
  rw [← pages_inside_iff hp hsize hok]
  refine ⟨Maps.inside, fun h => ?_⟩
  obtain ⟨hbytes, halign, -⟩ := checkAccess_ok hok
  have hpage : (mappingOf pageSize offset).offset.toNat = offset.toNat / 2 ^ k * 2 ^ k := toNat_pageOffset hp offset
  have hdiv := Nat.div_add_mod' offset.toNat (2 ^ k)
  have hend := access_in_page hk hbytes halign
  refine ⟨h, by omega, ?_⟩
  rw [hpage, roundUp_length hp]
  split <;> omega

/-- Four bytes in the middle of a BAR of 64 KiB. -/
theorem mapping_inside_iff_middle :
    checkAccess "01:00.0" (some 0x10000) 0x1054 32 = .ok 4 ∧
      Maps (mappingOf 4096 0x1054) (2 ^ 12) 0x10000 0x1054 4 := by
  have hok : checkAccess "01:00.0" (some 0x10000) 0x1054 32 = .ok 4 := by decide
  exact ⟨hok, (mapping_inside_iff (k := 12) (by decide) (by decide) (by decide) hok).2 (.inr (by decide))⟩

/-- Four bytes in the last page of 64 KiB pass the checks, and the second page of the mapping is outside. -/
theorem mapping_past_end :
    checkAccess "01:00.0" (some 0x10000) 0xf004 32 = .ok 4 ∧
      ¬ Maps (mappingOf 4096 0xf004) 4096 0x10000 0xf004 4 := by
  refine ⟨by decide, fun h => ?_⟩
  exact absurd h.inside (by decide)

/-! ## What main does -/

theorem checkAccess_ne_cannotMap (bdf : String) (size : Option UInt64) (offset width : UInt64) :
    checkAccess bdf size offset width ≠ .error .cannotMap := by
  intro h
  unfold checkAccess at h
  split at h
  · cases h
  dsimp only at h
  split at h
  · cases h
  split at h
  · cases h
  · split at h <;> cases h

theorem main_maps {sys : System} {argv : List String} {r : Except Failure Access} (h : main sys argv = r)
    (hr : r = .error .cannotMap ∨ ∃ a, r = .ok a) :
    ∃ bdf write offset width bytes value, checkAccess bdf (barSize sys) offset width = .ok bytes ∧
      r = mapAccess sys write offset bytes value := by
  have hstop : ∀ e, e ≠ .cannotMap → r ≠ .error e := by
    rintro e hne rfl
    rcases hr with hr | ⟨a, hr⟩
    · cases hr
      exact hne rfl
    · cases hr
  unfold main at h
  split at h
  · rename_i bdf op offsetText widthText more
    split at h
    · exact absurd h.symm (hstop _ (by decide))
    split at h
    · exact absurd h.symm (hstop _ (by decide))
    split at h
    · rename_i offset width _ _
      split at h
      · exact absurd h.symm (hstop _ (by decide))
      split at h
      · rename_i e he
        refine absurd h.symm (hstop _ ?_)
        rintro rfl
        exact checkAccess_ne_cannotMap _ _ _ _ he
      · rename_i bytes hok
        split at h
        · exact absurd h.symm (hstop _ (by decide))
        split at h
        · exact absurd h.symm (hstop _ (by decide))
        exact ⟨bdf, _, offset, width, bytes, _, hok, h.symm⟩
    · exact absurd h.symm (hstop _ (by decide))
  · exact absurd h.symm (hstop _ (by decide))

/-- **With a kernel that refuses what leaves the BAR, an admitted access fails exactly in the last page, beyond its
beginning.** -/
theorem mapAccess_fails_iff {sys : System} (write : Bool) (value : UInt64) (hopen : sys.opens = true)
    (hp : sys.pageSize.toInt = 2 ^ k) (hsize : size.toNat % 2 ^ k = 0)
    (hgrants : ∀ m, sys.grants m = true ↔ m.offset.toNat + roundUp m.length.toNat (2 ^ k) ≤ size.toNat)
    (hok : checkAccess bdf (some size) offset width = .ok bytes) :
    mapAccess sys write offset bytes value = .error .cannotMap ↔
      ¬ (offset.toNat % 2 ^ k = 0 ∨ offset.toNat / 2 ^ k + 1 < size.toNat / 2 ^ k) := by
  have hpage : ¬ sys.pageSize ≤ 0 := by
    rw [Int64.le_iff_toInt_le, hp]
    have hpos : (0 : Int) < 2 ^ k := by positivity
    exact Int.not_le.2 hpos
  rw [← pages_inside_iff hp hsize hok, ← hgrants, mapAccess, hopen, Bool.not_true, if_neg Bool.false_ne_true,
    if_neg hpage]
  dsimp only
  cases sys.grants (mappingOf sys.pageSize offset) with
  | false => exact iff_of_true rfl Bool.false_ne_true
  | true  => exact iff_of_false nofun (fun h => h rfl)

end Admitted

end Pcimem
end Vip
