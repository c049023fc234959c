/-
`string_list_add` and `ipc_list_devices`: the names of the interfaces, kept in one buffer as
`first\0second\0…last\0\0`.

`string_list_add` copies a C string with its NUL to `buffer + len`, adds its length to `len`
and writes one more NUL there, growing the buffer first when `len >= cap - len` for the
string's length with its NUL.  The counters are `size_t`, so they are `UInt64` here and wrap
as the C ones do; the buffer is the `cap` bytes it points to, and a write past them is
`none`.  `StringList.Holds` says what the buffer holds between calls: the names added so far,
each with its NUL, then one more NUL, with room for it.  Every call keeps it, whether its
`realloc` fails or not, as long as the buffer the call needs fits in `size_t`
(`stringListAdd_holds`); that is what makes `ipc_list_devices` return the names it was given.
-/
import WireguardIpc.Containers

namespace WireguardIpc

/-! ### `size_t` -/

/-- `SIZE_MAX` on LP64. -/
def SIZE_MAX : Nat := 2 ^ 64 - 1

theorem UInt64.toNat_lt (a : UInt64) : a.toNat < 2 ^ 64 := a.toNat_lt_size

theorem UInt64.toNat_add_eq (a b : UInt64) : (a + b).toNat = (a.toNat + b.toNat) % 2 ^ 64 := rfl

theorem UInt64.toNat_mul_eq (a b : UInt64) : (a * b).toNat = (a.toNat * b.toNat) % 2 ^ 64 := rfl

theorem UInt64.toNat_sub_eq (a b : UInt64) :
    (a - b).toNat = (2 ^ 64 - b.toNat + a.toNat) % 2 ^ 64 := rfl

theorem UInt64.toNat_ofNat_eq (n : Nat) : (UInt64.ofNat n).toNat = n % 2 ^ 64 :=
  BitVec.toNat_ofNat _ _

theorem UInt64.toNat_one : (1 : UInt64).toNat = 1 := rfl

theorem UInt64.le_iff_toNat_le {a b : UInt64} : a ≤ b ↔ a.toNat ≤ b.toNat := .rfl

theorem UInt64.lt_iff_toNat_lt {a b : UInt64} : a < b ↔ a.toNat < b.toNat := .rfl

theorem UInt64.eq_iff_toNat_eq {a b : UInt64} : a = b ↔ a.toNat = b.toNat :=
  ⟨congrArg _, UInt64.toNat.inj⟩

/-! ### `string_list_add` -/

/-- `struct string_list`: `buffer` is `NULL` or the `cap` bytes it points to. -/
structure StringList where
  buffer : Option (List UInt8)
  len : UInt64
  cap : UInt64

/-- `struct string_list list = { 0 }`. -/
def StringList.zero : StringList := ⟨none, 0, 0⟩

/-- The C string at `str`: its bytes before the first NUL (a list with none ends in one). -/
def cstring (str : List UInt8) : List UInt8 := str.takeWhile (· != 0)

/-- `realloc(buffer, n)` when it succeeds: the old bytes kept up to `n`, and those past the
old block whatever `fill` gives for their offset. -/
def reallocBlock (buffer : Option (List UInt8)) (n : Nat) (fill : Nat → UInt8) : List UInt8 :=
  let old := buffer.getD []
  (old ++ (List.range (n - old.length)).map fun i => fill (old.length + i)).take n

/-- `memcpy(block + off, src, src_len)`, `none` when it would write past the block. -/
def writeAt (block : List UInt8) (off : Nat) (src : List UInt8) : Option (List UInt8) :=
  if off + src.length ≤ block.length then
    some (block.take off ++ src ++ block.drop (off + src.length))
  else none

/-- The end of `string_list_add`, once there is room: `memcpy(list->buffer + list->len, str,
len); list->len += len; list->buffer[list->len] = '\0';`. -/
def StringList.append (list : StringList) (str : List UInt8) (len : UInt64) :
    Option (Int × StringList) := do
  let block ← list.buffer
  let block ← writeAt block list.len.toNat (cstring str ++ [0])
  let newLen := list.len + len
  let block ← writeAt block newLen.toNat [0]
  pure (0, { list with buffer := some block, len := newLen })

/-- `string_list_add(list, str)`, given what its `realloc` does (`none`: it fails, and
`errno` is `ENOMEM`): the return value and the list after the call, `none` when the call
writes outside the buffer. -/
def stringListAdd (list : StringList) (str : List UInt8) (realloc : Option (Nat → UInt8)) :
    Option (Int × StringList) :=
  let len := UInt64.ofNat (cstring str).length + 1
  if len = 1 then some (0, list)
  else if len ≥ list.cap - list.len then
    let newCap := if list.cap * 2 < list.len + len + 1 then list.len + len + 1 else list.cap * 2
    match realloc with
    | none => some (-(ENOMEM : Int), list)
    | some fill =>
      StringList.append { list with buffer := some (reallocBlock list.buffer newCap.toNat fill),
                                    cap := newCap } str len
  else list.append str len

theorem writeAt_spec {block src : List UInt8} {off : Nat} (h : off + src.length ≤ block.length) :
    ∃ block', writeAt block off src = some block' ∧ block'.length = block.length ∧
      block'.take (off + src.length) = block.take off ++ src := by
  refine ⟨_, if_pos h, ?_, List.take_left' ?_⟩ <;>
    simp only [List.length_append, List.length_take, List.length_drop] <;> omega

theorem reallocBlock_spec (buffer : Option (List UInt8)) {n k : Nat} (fill : Nat → UInt8)
    (hk : k ≤ n) (hold : k ≤ (buffer.getD []).length) :
    (reallocBlock buffer n fill).length = n ∧
      (reallocBlock buffer n fill).take k = (buffer.getD []).take k := by
  constructor
  · simp only [reallocBlock, List.length_take, List.length_append, List.length_map,
      List.length_range]
    omega
  · rw [reallocBlock, List.take_take, Nat.min_eq_left hk, List.take_append_of_le_length hold]

/-! ### What the buffer holds -/

/-- `first\0second\0…last\0`: each name followed by its NUL. -/
def encodeNames (names : List (List UInt8)) : List UInt8 := (names.map (· ++ [0])).flatten

@[simp] theorem encodeNames_nil : encodeNames [] = [] := rfl

@[simp] theorem encodeNames_append (a b : List (List UInt8)) :
    encodeNames (a ++ b) = encodeNames a ++ encodeNames b := by
  simp [encodeNames]

@[simp] theorem encodeNames_cons (s : List UInt8) (names : List (List UInt8)) :
    encodeNames (s :: names) = s ++ 0 :: encodeNames names := by
  simp [encodeNames]

/-- The name a call adds: its C string, unless that is empty. -/
def addedName (str : List UInt8) : List (List UInt8) :=
  if cstring str = [] then [] else [cstring str]

/-- The list holds the names `names`. -/
structure StringList.Holds (list : StringList) (names : List (List UInt8)) : Prop where
  /-- Every name held is a non-empty C string. -/
  nonempty : ∀ s ∈ names, s ≠ [] ∧ 0 ∉ s
  /-- `len` counts the names' bytes with their NULs. -/
  len_eq : list.len.toNat = (encodeNames names).length
  /-- With no buffer there is no room and no name. -/
  null : list.buffer = none → list.cap = 0 ∧ names = []
  /-- With no name there is no buffer: only a call that adds a name allocates one. -/
  empty : names = [] → list.buffer = none
  /-- A buffer is `cap` bytes, with room for a NUL at `len`, and starts with the names and
  that NUL. -/
  block : ∀ block, list.buffer = some block → block.length = list.cap.toNat ∧
    list.len.toNat + 1 ≤ list.cap.toNat ∧ block.take (list.len.toNat + 1) = encodeNames names ++ [0]

theorem StringList.zero_holds : StringList.zero.Holds [] :=
  ⟨by simp, rfl, fun _ => ⟨rfl, rfl⟩, fun _ => rfl, fun _ h => by cases h⟩

/-- Whenever `cap > 0`, `buffer[len]` is inside the buffer, so `cap - len` does not wrap. -/
theorem StringList.Holds.room {list : StringList} {names : List (List UInt8)}
    (h : list.Holds names) (hcap : 0 < list.cap.toNat) : list.len.toNat + 1 ≤ list.cap.toNat := by
  cases hb : list.buffer with
  | none => rw [(h.null hb).1] at hcap; exact absurd hcap (by decide)
  | some block => exact (h.block block hb).2.1

theorem StringList.Holds.len_le {list : StringList} {names : List (List UInt8)}
    (h : list.Holds names) : list.len.toNat ≤ list.cap.toNat := by
  cases hb : list.buffer with
  | none => obtain ⟨-, rfl⟩ := h.null hb; rw [h.len_eq]; exact Nat.zero_le _
  | some block => exact Nat.le_of_succ_le (h.block block hb).2.1

/-- The bytes before `len`, a buffer or none, are the names. -/
theorem StringList.Holds.prefix {list : StringList} {names : List (List UInt8)}
    (h : list.Holds names) :
    list.len.toNat < (list.buffer.getD []).length + 1 ∧
      (list.buffer.getD []).take list.len.toNat = encodeNames names := by
  cases hb : list.buffer with
  | none =>
    obtain ⟨-, rfl⟩ := h.null hb
    simp [h.len_eq]
  | some block =>
    obtain ⟨hsize, hroom, htake⟩ := h.block block hb
    refine ⟨by simp only [Option.getD_some]; omega, ?_⟩
    have hsub : block.take list.len.toNat = (block.take (list.len.toNat + 1)).take list.len.toNat := by
      rw [List.take_take, Nat.min_eq_left (Nat.le_succ _)]
    rw [Option.getD_some, hsub, htake, List.take_append_of_le_length (by rw [h.len_eq]),
      List.take_of_length_le (by rw [h.len_eq])]

/-- A block is the names, a NUL, and whatever lies after them. -/
theorem StringList.Holds.buffer_eq {list : StringList} {names : List (List UInt8)}
    (h : list.Holds names) {block : List UInt8} (hb : list.buffer = some block) :
    block = encodeNames names ++ 0 :: block.drop (list.len.toNat + 1) := by
  conv_lhs => rw [← List.take_append_drop (list.len.toNat + 1) block]
  rw [(h.block block hb).2.2, List.append_assoc, List.singleton_append]

theorem cstring_nul_free (str : List UInt8) : 0 ∉ cstring str := fun h => by
  simpa using List.mem_takeWhile_imp h

/-- **The copy at `len`**: with room for the string, its NUL and one more NUL, the end of
`string_list_add` writes inside the buffer and the list then holds one more name. -/
theorem StringList.append_holds (list : StringList) {names : List (List UInt8)}
    {str : List UInt8} {len : UInt64} {block : List UInt8} (hbuf : list.buffer = some block)
    (hsize : block.length = list.cap.toNat) (hL : list.len.toNat = (encodeNames names).length)
    (hpre : block.take list.len.toNat = encodeNames names)
    (hlen : len.toNat = (cstring str).length + 1)
    (hroom : list.len.toNat + len.toNat + 1 ≤ list.cap.toNat)
    (hnames : ∀ s ∈ names, s ≠ [] ∧ 0 ∉ s) (hc : cstring str ≠ []) :
    ∃ list', list.append str len = some (0, list') ∧ list'.Holds (names ++ [cstring str]) := by
  have hcap := UInt64.toNat_lt list.cap
  have hnew : (list.len + len).toNat = list.len.toNat + (cstring str ++ [0]).length := by
    rw [UInt64.toNat_add_eq, List.length_append, List.length_singleton, ← hlen]
    exact Nat.mod_eq_of_lt (by omega)
  obtain ⟨b₁, hw₁, hl₁, ht₁⟩ := writeAt_spec
    (show list.len.toNat + (cstring str ++ [0]).length ≤ block.length by
      simp only [List.length_append, List.length_singleton]; omega)
  obtain ⟨b₂, hw₂, hl₂, ht₂⟩ := writeAt_spec
    (show (list.len + len).toNat + [0].length ≤ b₁.length by
      simp only [List.length_singleton, hnew, List.length_append]; omega)
  refine ⟨⟨some b₂, list.len + len, list.cap⟩, ?_, ?_, ?_, ?_, ?_, ?_⟩
  · simp only [StringList.append, hbuf, Option.bind_eq_bind, Option.some_bind, hw₁, hw₂]
    rfl
  · simp only [List.mem_append, List.mem_singleton]
    rintro s (hs | rfl)
    exacts [hnames s hs, ⟨hc, cstring_nul_free str⟩]
  · simp only [hnew, hL, encodeNames_append, encodeNames_cons, encodeNames_nil,
      List.length_append, List.length_cons, List.length_nil]
  · intro h; cases h
  · intro h; simp at h
  · rintro b hb
    obtain rfl := Option.some.inj hb
    refine ⟨by rw [hl₂, hl₁, hsize], show (list.len + len).toNat + 1 ≤ list.cap.toNat by
      simp only [List.length_append, List.length_singleton] at hnew; omega, ?_⟩
    rw [List.length_singleton] at ht₂
    rw [ht₂, hnew, ht₁, hpre]
    simp

/-- The capacity `string_list_add` grows to, the larger of `len + strlen + 2` and twice
`cap`, has room for the string and both NULs. -/
theorem growCap_room (len cap size : UInt64) (h : len.toNat + size.toNat + 1 < 2 ^ 64) :
    len.toNat + size.toNat + 1 ≤
      (if cap * 2 < len + size + 1 then len + size + 1 else cap * 2).toNat := by
  have hsum : (len + size + 1).toNat = len.toNat + size.toNat + 1 := by
    rw [UInt64.toNat_add_eq, UInt64.toNat_add_eq, UInt64.toNat_one,
      Nat.mod_eq_of_lt (show len.toNat + size.toNat < 2 ^ 64 by omega)]
    exact Nat.mod_eq_of_lt h
  split_ifs with hlt
  · exact hsum.ge
  · rw [UInt64.lt_iff_toNat_lt, hsum] at hlt; omega

/-- **The growing branch**: a `realloc` to a capacity with room for the string and both
NULs keeps the names, and the copy then holds one more. -/
theorem StringList.Holds.grow {list : StringList} {names : List (List UInt8)}
    (h : list.Holds names) {str : List UInt8} {len newCap : UInt64} (fill : Nat → UInt8)
    (hlen : len.toNat = (cstring str).length + 1)
    (hroom : list.len.toNat + len.toNat + 1 ≤ newCap.toNat) (hc : cstring str ≠ []) :
    ∃ list', StringList.append { list with
        buffer := some (reallocBlock list.buffer newCap.toNat fill), cap := newCap } str len =
      some (0, list') ∧ list'.Holds (names ++ [cstring str]) := by
  obtain ⟨hold, hpre⟩ := h.prefix
  obtain ⟨hsize, htake⟩ := reallocBlock_spec list.buffer fill
    (show list.len.toNat ≤ newCap.toNat by omega) (by omega)
  exact StringList.append_holds _ rfl hsize h.len_eq (htake.trans hpre) hlen hroom h.nonempty hc

/-- **Every call keeps the invariant.**  From a list that holds `names`, as long as the buffer
the call needs fits in `size_t`, `string_list_add` writes only inside the buffer, and either
returns `0` with the string's name, if it has one, added, or returns `-ENOMEM` because its
`realloc` failed, leaving the list as it was. -/
theorem stringListAdd_holds {list : StringList} {names : List (List UInt8)} (h : list.Holds names)
    (str : List UInt8) (realloc : Option (Nat → UInt8))
    (hfit : (encodeNames (names ++ addedName str)).length + 1 ≤ SIZE_MAX) :
    ∃ ret list', stringListAdd list str realloc = some (ret, list') ∧
      (ret = 0 ∧ list'.Holds (names ++ addedName str) ∨
        ret = -(ENOMEM : Int) ∧ realloc = none ∧ list' = list) := by
  by_cases hc : cstring str = []
  · have h1 : UInt64.ofNat (cstring str).length + 1 = 1 := by rw [hc]; rfl
    refine ⟨0, list, by simp only [stringListAdd, h1, ↓reduceIte], .inl ⟨rfl, ?_⟩⟩
    rwa [addedName, if_pos hc, List.append_nil]
  have hadd : addedName str = [cstring str] := if_neg hc
  rw [hadd] at hfit ⊢
  simp only [encodeNames_append, encodeNames_cons, encodeNames_nil, List.length_append,
    List.length_cons, List.length_nil, SIZE_MAX] at hfit
  have hL := h.len_eq
  have hlen : (UInt64.ofNat (cstring str).length + 1).toNat = (cstring str).length + 1 := by
    rw [UInt64.toNat_add_eq, UInt64.toNat_ofNat_eq, UInt64.toNat_one,
      Nat.mod_eq_of_lt (show (cstring str).length < 2 ^ 64 by omega)]
    exact Nat.mod_eq_of_lt (by omega)
  have hne : UInt64.ofNat (cstring str).length + 1 ≠ 1 := by
    rw [Ne, UInt64.eq_iff_toNat_eq, hlen, UInt64.toNat_one]
    exact fun h => hc (List.eq_nil_of_length_eq_zero (by omega))
  simp only [stringListAdd, if_neg hne]
  by_cases hgrow : UInt64.ofNat (cstring str).length + 1 ≥ list.cap - list.len
  · -- `realloc` first
    rw [if_pos hgrow]
    cases realloc with
    | none => exact ⟨_, _, rfl, .inr ⟨rfl, rfl, rfl⟩⟩
    | some fill =>
      obtain ⟨list', happ, h'⟩ := h.grow fill hlen
        (growCap_room list.len list.cap _ (by rw [hlen]; omega)) hc
      exact ⟨_, _, happ, .inl ⟨rfl, h'⟩⟩
  · -- room enough already
    rw [if_neg hgrow]
    obtain ⟨-, hpre⟩ := h.prefix
    have hsub : (list.cap - list.len).toNat = list.cap.toNat - list.len.toNat :=
      UInt64.toNat_sub_of_le _ _ (UInt64.le_iff_toNat_le.2 h.len_le)
    rw [ge_iff_le, UInt64.le_iff_toNat_le, hsub, hlen] at hgrow
    obtain ⟨block, hb⟩ := Option.ne_none_iff_exists'.1 fun hb => by
      rw [(h.null hb).1] at hgrow; exact hgrow (by simp)
    obtain ⟨hsize, -, -⟩ := h.block block hb
    rw [hb, Option.getD_some] at hpre
    obtain ⟨list', happ, h'⟩ := StringList.append_holds list hb hsize hL hpre hlen (by omega)
      h.nonempty hc
    exact ⟨_, _, happ, .inl ⟨rfl, h'⟩⟩

/-! ### `ipc_list_devices` -/

/-- What one of the functions that enumerate interfaces does with the list: the strings it
passes to `string_list_add`, in order, each with what that call's `realloc` does, and the
error it returns of its own once they are added (`none`: it returns `0`). -/
structure Enumeration where
  calls : List (List UInt8 × Option (Nat → UInt8))
  error : Option Nat

/-- The enumeration's loop: add each string, returning at the first `string_list_add` that
fails; then its own result. -/
def enumerate (list : StringList) : List (List UInt8 × Option (Nat → UInt8)) → Option Nat →
    Option (Int × StringList)
  | [], error => some ((error.map fun e => -(e : Int)).getD 0, list)
  | (str, realloc) :: calls, error => do
    let (ret, list) ← stringListAdd list str realloc
    if ret < 0 then pure (ret, list) else enumerate list calls error

/-- `ipc_list_devices()` on Linux and OpenBSD, given what the kernel's enumeration and the
userspace one do and whether `strdup` succeeds: the buffer returned, `none` for `NULL`; the
outer `none` when a call writes outside the buffer. -/
def ipcListDevices (kernel userspace : Enumeration) (strdupOk : Bool) :
    Option (Option (List UInt8)) := do
  let (ret, list) ← enumerate StringList.zero kernel.calls kernel.error
  let (ret, list) ← if ret < 0 then pure (ret, list)
    else enumerate list userspace.calls userspace.error
  if -ret ≠ 0 then pure none
  else
    match list.buffer with
    | some block => pure (some block)
    | none => pure (if strdupOk then some [0] else none)

/-- Reading `first\0second\0…\0\0` back from the string being read so far: each string
up to its NUL, until an empty one. -/
def splitNamesFrom (cur : List UInt8) : List UInt8 → List (List UInt8)
  | [] => []
  | 0 :: rest => if cur = [] then [] else cur.reverse :: splitNamesFrom [] rest
  | b :: rest => splitNamesFrom (b :: cur) rest

/-- Splitting at NULs, up to the first empty string. -/
def splitNames (buffer : List UInt8) : List (List UInt8) := splitNamesFrom [] buffer

theorem splitNamesFrom_append {s : List UInt8} (hs : 0 ∉ s) (cur rest : List UInt8) :
    splitNamesFrom cur (s ++ rest) = splitNamesFrom (s.reverse ++ cur) rest := by
  induction s generalizing cur with
  | nil => rfl
  | cons b s ih =>
    have hb : b ≠ 0 := fun h => hs (h ▸ List.mem_cons_self b s)
    rw [List.cons_append, splitNamesFrom.eq_3 _ _ _ hb, ih (fun h => hs (List.mem_cons_of_mem b h))]
    simp

/-- **The names come back**: split at NULs up to the first empty string, the encoding of
non-empty C strings followed by a NUL, and anything after it, gives the strings. -/
theorem splitNames_encodeNames {names : List (List UInt8)} (h : ∀ s ∈ names, s ≠ [] ∧ 0 ∉ s)
    (junk : List UInt8) : splitNames (encodeNames names ++ 0 :: junk) = names := by
  induction names with
  | nil => rfl
  | cons s names ih =>
    obtain ⟨hne, hs⟩ := h s (List.mem_cons_self s names)
    rw [encodeNames_cons, List.append_assoc, List.cons_append, splitNames,
      splitNamesFrom_append hs, List.append_nil, splitNamesFrom,
      if_neg (by simpa using hne), List.reverse_reverse]
    exact congrArg _ (ih fun t ht => h t (List.mem_cons_of_mem s ht))

/-- **An enumeration's loop** keeps the invariant: it returns `0` or a negative error, `0` with
every name it passed added, and `0` whenever each `realloc` it needs succeeds and it has no
error of its own. -/
theorem enumerate_holds {list : StringList} {names : List (List UInt8)} (h : list.Holds names)
    (calls : List (List UInt8 × Option (Nat → UInt8))) (error : Option Nat)
    (hfit : (encodeNames (names ++ calls.flatMap fun c => addedName c.1)).length + 1 ≤ SIZE_MAX) :
    ∃ ret list', enumerate list calls error = some (ret, list') ∧ ret ≤ 0 ∧
      (ret = 0 → list'.Holds (names ++ calls.flatMap fun c => addedName c.1)) ∧
      ((∀ c ∈ calls, c.2.isSome) → error.getD 0 = 0 → ret = 0) := by
  induction calls generalizing list names with
  | nil =>
    refine ⟨_, list, rfl, ?_, fun _ => by rwa [List.flatMap_nil, List.append_nil], fun _ he => ?_⟩
    · cases error
      · simp
      · show -(_ : Int) ≤ 0; omega
    · cases error <;> simp_all
  | cons c calls ih =>
    obtain ⟨str, realloc⟩ := c
    rw [List.flatMap_cons, ← List.append_assoc] at hfit ⊢
    dsimp only at hfit ⊢
    have hfit₁ : (encodeNames (names ++ addedName str)).length + 1 ≤ SIZE_MAX := by
      rw [encodeNames_append, List.length_append] at hfit; omega
    obtain ⟨ret, list₁, hadd, hok | ⟨rfl, rfl, rfl⟩⟩ := stringListAdd_holds h str realloc hfit₁
    · obtain ⟨rfl, h₁⟩ := hok
      obtain ⟨ret', list', hrun, hle, hholds, hall⟩ := ih h₁ hfit
      refine ⟨ret', list', ?_, hle, hholds, fun hs he => hall (fun c hc => hs c
        (List.mem_cons_of_mem _ hc)) he⟩
      simp only [enumerate, hadd, Option.bind_eq_bind, Option.some_bind]
      exact (if_neg (Int.lt_irrefl 0)).trans hrun
    · refine ⟨-(ENOMEM : Int), list₁, ?_, by simp [ENOMEM], fun h0 => by simp [ENOMEM] at h0,
        fun hs _ => by simpa using hs _ (List.mem_cons_self _ _)⟩
      simp only [enumerate, hadd, Option.bind_eq_bind, Option.some_bind]
      rw [if_pos (by simp [ENOMEM])]
      rfl

/-- The names `ipc_list_devices` is given: the non-empty C strings the kernel's enumeration
passes, then the userspace one's. -/
def listedNames (kernel userspace : Enumeration) : List (List UInt8) :=
  (kernel.calls ++ userspace.calls).flatMap fun c => addedName c.1

/-- **`ipc_list_devices`**: while the names fit in `size_t`, every call stays inside the
buffer; a buffer returned is the names, each with its NUL, and one more NUL; and the call
returns one whenever every `realloc` and `strdup` succeeds and neither enumeration fails. -/
theorem ipcListDevices_spec (kernel userspace : Enumeration) (strdupOk : Bool)
    (hfit : (encodeNames (listedNames kernel userspace)).length + 1 ≤ SIZE_MAX) :
    ∃ r, ipcListDevices kernel userspace strdupOk = some r ∧
      (∀ buffer, r = some buffer →
        (∃ junk, buffer = encodeNames (listedNames kernel userspace) ++ 0 :: junk) ∧
        (listedNames kernel userspace = [] → buffer = [0]) ∧
        splitNames buffer = listedNames kernel userspace) ∧
      ((∀ c ∈ kernel.calls ++ userspace.calls, c.2.isSome) → kernel.error.getD 0 = 0 →
        userspace.error.getD 0 = 0 → strdupOk → r.isSome) := by
  have hsplit : listedNames kernel userspace =
      [] ++ kernel.calls.flatMap (fun c => addedName c.1) ++
        userspace.calls.flatMap fun c => addedName c.1 := by
    rw [listedNames, List.flatMap_append, List.nil_append]
  have hk : (encodeNames ([] ++ kernel.calls.flatMap fun c => addedName c.1)).length + 1 ≤
      SIZE_MAX := by
    rw [hsplit, encodeNames_append, List.length_append] at hfit; omega
  obtain ⟨ret₁, list₁, hrun₁, hle₁, hok₁, hall₁⟩ :=
    enumerate_holds StringList.zero_holds kernel.calls kernel.error hk
  by_cases hneg : ret₁ < 0
  · refine ⟨none, ?_, (fun _ h => nomatch h), fun hs he _ _ => absurd
      (hall₁ (fun c hc => hs c (List.mem_append_left _ hc)) he) (by omega)⟩
    simp only [ipcListDevices, hrun₁, Option.bind_eq_bind, Option.some_bind, if_pos hneg]
    exact if_pos (by omega)
  obtain ⟨ret₂, list₂, hrun₂, hle₂, hok₂, hall₂⟩ :=
    enumerate_holds (hok₁ (by omega)) userspace.calls userspace.error (hsplit ▸ hfit)
  rw [← hsplit] at hok₂
  have hrun : ipcListDevices kernel userspace strdupOk =
      if -ret₂ ≠ 0 then some none
      else match list₂.buffer with
        | some block => some (some block)
        | none => some (if strdupOk then some [0] else none) := by
    simp only [ipcListDevices, hrun₁, Option.bind_eq_bind, Option.some_bind, if_neg hneg, hrun₂]
    rfl
  by_cases hz : ret₂ = 0
  · have hH := hok₂ hz
    rw [if_neg (by omega)] at hrun
    cases hb : list₂.buffer with
    | none =>
      rw [hb] at hrun
      refine ⟨_, hrun, fun buffer hbuf => ?_, fun _ _ _ hd => by simp [hd]⟩
      obtain ⟨-, hnil⟩ := hH.null hb
      rw [hnil]
      split_ifs at hbuf
      obtain rfl := Option.some.inj hbuf
      exact ⟨⟨[], rfl⟩, fun _ => rfl, rfl⟩
    | some block =>
      rw [hb] at hrun
      refine ⟨_, hrun, fun buffer hbuf => ?_, fun _ _ _ _ => rfl⟩
      obtain rfl := Option.some.inj hbuf
      have hblock := hH.buffer_eq hb
      exact ⟨⟨_, hblock⟩, fun hnil => absurd (hH.empty hnil) (by simp [hb]),
        hblock ▸ splitNames_encodeNames hH.nonempty _⟩
  · refine ⟨none, by rw [hrun, if_pos (by omega)], (fun _ h => nomatch h), fun hs he₁ he₂ _ =>
      absurd (hall₂ (fun c hc => hs c (List.mem_append_right _ hc)) he₂) hz⟩

/-- **A string list holds the names added to it, and `ipc_list_devices` returns them.**  The
zero list holds none.  A list holding names has `cap - len` without wrap-around and
`len + 1 ≤ cap` once `cap > 0`, and its buffer starts with the names, each with its NUL,
and one more NUL.  From it, while the names and the string's fit in `size_t`,
`string_list_add` writes inside the buffer and either holds the string's name too (nothing
for an empty string), or returns `-ENOMEM` after a failed `realloc` with the buffer, `len`
and `cap` as they were.  So `ipc_list_devices` returns the names its enumerations passed,
each with its NUL, then a NUL (only that NUL when there is none), and splitting it at NULs
up to the first empty string gives them back. -/
theorem string_list_add_keeps_names :
    StringList.zero.Holds [] ∧
    (∀ (list : StringList) (names : List (List UInt8)), list.Holds names →
      (list.cap - list.len).toNat = list.cap.toNat - list.len.toNat ∧
      (0 < list.cap.toNat → list.len.toNat + 1 ≤ list.cap.toNat) ∧
      (∀ block, list.buffer = some block → list.len.toNat < block.length ∧
        block.take (list.len.toNat + 1) = encodeNames names ++ [0]) ∧
      ∀ str realloc, (encodeNames (names ++ addedName str)).length + 1 ≤ SIZE_MAX →
        ∃ ret list', stringListAdd list str realloc = some (ret, list') ∧
          (ret = 0 ∧ list'.Holds (names ++ addedName str) ∨
            ret = -(ENOMEM : Int) ∧ realloc = none ∧ list' = list)) ∧
    ∀ kernel userspace strdupOk,
      (encodeNames (listedNames kernel userspace)).length + 1 ≤ SIZE_MAX →
      ∃ r, ipcListDevices kernel userspace strdupOk = some r ∧
        (∀ buffer, r = some buffer →
          (∃ junk, buffer = encodeNames (listedNames kernel userspace) ++ 0 :: junk) ∧
          (listedNames kernel userspace = [] → buffer = [0]) ∧
          splitNames buffer = listedNames kernel userspace) ∧
        ((∀ c ∈ kernel.calls ++ userspace.calls, c.2.isSome) → kernel.error.getD 0 = 0 →
          userspace.error.getD 0 = 0 → strdupOk → r.isSome) := by
  refine ⟨StringList.zero_holds, fun list names h => ⟨?_, h.room, fun block hb => ?_,
    fun str realloc => stringListAdd_holds h str realloc⟩, ipcListDevices_spec⟩
  · exact UInt64.toNat_sub_of_le _ _ (UInt64.le_iff_toNat_le.2 h.len_le)
  · obtain ⟨hsize, hroom, htake⟩ := h.block block hb
    exact ⟨by omega, htake⟩

/-- A kernel enumeration passing `wg0`, an empty name and `wg1`. -/
def kernelWgNames : Enumeration :=
  ⟨[([119, 103, 48], some fun _ => 0), ([], some fun _ => 0), ([119, 103, 49], some fun _ => 0)],
    none⟩

/-- A socket directory enumeration passing `wg2`. -/
def socketWgNames : Enumeration := ⟨[([119, 103, 50], some fun _ => 0)], none⟩

theorem string_list_add_keeps_names_three :
    (encodeNames (listedNames kernelWgNames socketWgNames)).length + 1 ≤ SIZE_MAX ∧
      ∃ buffer, ipcListDevices kernelWgNames socketWgNames true = some (some buffer) ∧
        splitNames buffer = [[119, 103, 48], [119, 103, 49], [119, 103, 50]] := by
  have hfit : (encodeNames (listedNames kernelWgNames socketWgNames)).length + 1 ≤ SIZE_MAX := by
    decide
  obtain ⟨r, hr, hbuf, hsome⟩ := string_list_add_keeps_names.2.2 _ _ true hfit
  obtain ⟨buffer, rfl⟩ := Option.isSome_iff_exists.1 (hsome (by decide) rfl rfl rfl)
  exact ⟨hfit, buffer, hr, (hbuf buffer rfl).2.2.trans (by decide)⟩

/-! ### An enumeration's calls, one at a time

Each backend enumerates interfaces with a loop over what the system reports, calling
`string_list_add` as it goes.  `EnumState` is what such a loop changes, and
`EnumState.addAll` is a run of calls up to the first that fails.  A loop whose calls are
`addAll` over some strings is `enumerate` over them (`enumerate_withReallocs`): that is how
the results on `ipc_list_devices` reach the code of each backend.
-/

/-- The `realloc` the next call meets, and those left for the calls after it: the first
outcome given, or success with the new bytes zero once they have run out. -/
def nextRealloc : List (Option (Nat → UInt8)) → Option (Nat → UInt8) × List (Option (Nat → UInt8))
  | [] => (some fun _ => 0, [])
  | realloc :: reallocs => (realloc, reallocs)

/-- What an enumeration changes as it runs: the list, what the `realloc`s of the calls to
come do, and `errno`. -/
structure EnumState where
  list : StringList
  reallocs : List (Option (Nat → UInt8))
  errno : Nat

/-- `string_list_add(list, str)` as one call of an enumeration; a failed `realloc` leaves
`errno` at `ENOMEM`. -/
def EnumState.add (s : EnumState) (str : List UInt8) : Option (Int × EnumState) :=
  (stringListAdd s.list str (nextRealloc s.reallocs).1).map fun (ret, list) =>
    (ret, ⟨list, (nextRealloc s.reallocs).2, if ret < 0 then ENOMEM else s.errno⟩)

/-- The calls for `strs` in turn, up to the first that fails: `.error` with its result, or
`.ok` once every call has succeeded. -/
def EnumState.addAll (s : EnumState) :
    List (List UInt8) → Option (Except (Int × EnumState) EnumState)
  | [] => some (.ok s)
  | str :: strs => do
    let (ret, s) ← s.add str
    if ret < 0 then pure (.error (ret, s)) else s.addAll strs

/-- What an enumeration returns once its calls are made: the failed call's result, or its own
error negated (`0` without one). -/
def EnumState.finish (error : Option Nat) : Except (Int × EnumState) EnumState → Int × EnumState
  | .error r => r
  | .ok s => ((error.map fun e => -(e : Int)).getD 0, s)

/-- Each string with the `realloc` its call meets. -/
def withReallocs : List (List UInt8) → List (Option (Nat → UInt8)) →
    List (List UInt8 × Option (Nat → UInt8))
  | [], _ => []
  | str :: strs, reallocs =>
    (str, (nextRealloc reallocs).1) :: withReallocs strs (nextRealloc reallocs).2

@[simp] theorem EnumState.addAll_nil (s : EnumState) : s.addAll [] = some (.ok s) := rfl

/-- The calls for `a ++ b` are those for `a`, then, when all of them succeed, those for `b`. -/
theorem EnumState.addAll_append (s : EnumState) (a b : List (List UInt8)) :
    s.addAll (a ++ b) = (s.addAll a).bind fun
      | .error r => some (.error r)
      | .ok s => s.addAll b := by
  induction a generalizing s with
  | nil => rfl
  | cons str a ih =>
    simp only [List.cons_append, addAll, Option.bind_eq_bind]
    rcases s.add str with _ | ⟨ret, s'⟩
    · rfl
    · by_cases hret : ret < 0
      · simp only [Option.some_bind, if_pos hret]; rfl
      · simp only [Option.some_bind, if_neg hret]
        exact ih s'

/-- **An enumeration's loop is `enumerate`** over the strings it adds, each with the `realloc`
its call meets, and its own error. -/
theorem enumerate_withReallocs (s : EnumState) (strs : List (List UInt8)) (error : Option Nat) :
    enumerate s.list (withReallocs strs s.reallocs) error =
      (s.addAll strs).map fun r => ((EnumState.finish error r).1, (EnumState.finish error r).2.list) := by
  induction strs generalizing s with
  | nil => rfl
  | cons str strs ih =>
    simp only [withReallocs, enumerate, EnumState.addAll, EnumState.add, Option.bind_eq_bind]
    rcases stringListAdd s.list str (nextRealloc s.reallocs).1 with _ | ⟨ret, list⟩
    · rfl
    · by_cases hret : ret < 0
      · simp only [Option.some_bind, Option.map_some', if_pos hret]; rfl
      · simp only [Option.some_bind, Option.map_some', if_neg hret]
        exact ih ⟨list, _, _⟩

@[simp] theorem flatMap_withReallocs (strs : List (List UInt8)) (reallocs : List (Option (Nat → UInt8))) :
    (withReallocs strs reallocs).flatMap (fun c => addedName c.1) = strs.flatMap addedName := by
  induction strs generalizing reallocs with
  | nil => rfl
  | cons str strs ih => simp [withReallocs, ih]

/-- When every `realloc` given succeeds, so does every call's. -/
theorem withReallocs_isSome {reallocs : List (Option (Nat → UInt8))}
    (h : ∀ r ∈ reallocs, r.isSome) (strs : List (List UInt8)) :
    ∀ c ∈ withReallocs strs reallocs, c.2.isSome := by
  induction strs generalizing reallocs with
  | nil => simp [withReallocs]
  | cons str strs ih =>
    have hnext : ∀ r ∈ (nextRealloc reallocs).2, r.isSome := by
      cases reallocs <;> simp_all [nextRealloc]
    have hhead : (nextRealloc reallocs).1.isSome := by
      cases reallocs <;> simp_all [nextRealloc]
    simp only [withReallocs, List.mem_cons, forall_eq_or_imp]
    exact ⟨hhead, ih hnext⟩

/-- **`ipc_list_devices` over two enumerations given by their names**: while those fit in
`size_t`, a buffer it returns splits back into their C strings, empty ones left out, and it
returns one whenever every `realloc` and `strdup` succeeds and neither enumeration fails. -/
theorem ipcListDevices_withReallocs (kernel userspace : List (List UInt8))
    (kernelError userspaceError : Option Nat) (kernelReallocs userspaceReallocs : List (Option (Nat → UInt8)))
    (strdupOk : Bool) (hfit : (encodeNames ((kernel ++ userspace).flatMap addedName)).length + 1 ≤ SIZE_MAX) :
    ∃ r, ipcListDevices ⟨withReallocs kernel kernelReallocs, kernelError⟩
        ⟨withReallocs userspace userspaceReallocs, userspaceError⟩ strdupOk = some r ∧
      (∀ buffer, r = some buffer → splitNames buffer = (kernel ++ userspace).flatMap addedName) ∧
      ((∀ x ∈ kernelReallocs ++ userspaceReallocs, x.isSome) → kernelError = none →
        userspaceError = none → strdupOk → r.isSome) := by
  have hlisted : listedNames ⟨withReallocs kernel kernelReallocs, kernelError⟩
      ⟨withReallocs userspace userspaceReallocs, userspaceError⟩ =
        (kernel ++ userspace).flatMap addedName := by
    simp [listedNames, List.flatMap_append]
  obtain ⟨r, hr, hbuf, hsome⟩ := ipcListDevices_spec _ _ strdupOk (hlisted ▸ hfit)
  refine ⟨r, hr, fun buffer hb => hlisted ▸ (hbuf buffer hb).2.2, fun hall hk hu hd => ?_⟩
  refine hsome (fun c hc => ?_) (by simp [hk]) (by simp [hu]) hd
  rcases List.mem_append.1 hc with hc | hc
  · exact withReallocs_isSome (fun x hx => hall x (List.mem_append_left _ hx)) kernel c hc
  · exact withReallocs_isSome (fun x hx => hall x (List.mem_append_right _ hx)) userspace c hc

end WireguardIpc
