/-
The C string and stdio pieces the userspace backend of `ipc.c` speaks its text protocol
with.

A reply on the userspace socket is a stream of bytes.  `getline` cuts it into lines, each
running to and including its newline; `userspace_get_device` reads a line as a C string,
so only up to its first NUL, cuts it at its first `=`, and reads numbers with `strtoull`,
which saturates instead of failing.  `userspace_set_device` writes each line with
`fprintf` and a trailing newline, numbers with `%u`.

Besides the models, this file proves what the two directions share: newline-terminated
lines written one after the other are read back as those lines, a written `key=value`
line splits back into its key and value, the `endpoint` and `allowed_ip` values split
back into their parts, and `%u` output reads back through `NUM`.  It also proves what
`NUM` accepts: exactly the digit strings of value at most its bound, for every bound
below `ULLONG_MAX`.
-/
import WireguardIpc.Containers

namespace WireguardIpc

/-! ### Bytes of text -/

/-- The bytes of an ASCII string literal. -/
def cstr (s : String) : List UInt8 := s.toList.map Char.toUInt8

/-- `'\n'`. -/
def newline : UInt8 := 10
/-- `'='`. -/
def equalsSign : UInt8 := 61
/-- `':'`. -/
def colon : UInt8 := 58
/-- `'/'`. -/
def slash : UInt8 := 47
/-- `'['`. -/
def openBracket : UInt8 := 91
/-- `']'`. -/
def closeBracket : UInt8 := 93

/-- `isdigit`. -/
def isdigit (b : UInt8) : Bool := 48 ≤ b.toNat && b.toNat ≤ 57

/-- Text that can stand inside a written line: no NUL, which would end the C string the
reader sees, and no newline, which would end the line. -/
def Inline (l : List UInt8) : Prop := 0 ∉ l ∧ newline ∉ l

instance (l : List UInt8) : Decidable (Inline l) := inferInstanceAs (Decidable (_ ∧ _))

theorem Inline.append {l₁ l₂ : List UInt8} (h₁ : Inline l₁) (h₂ : Inline l₂) : Inline (l₁ ++ l₂) :=
  ⟨by simp [h₁.1, h₂.1], by simp [h₁.2, h₂.2]⟩

theorem Inline.cons {b : UInt8} {l : List UInt8} (hb : b ≠ 0 ∧ b ≠ newline) (h : Inline l) :
    Inline (b :: l) :=
  ⟨by simp [h.1, Ne.symm hb.1], by simp [h.2, Ne.symm hb.2]⟩

theorem inline_of_digits {l : List UInt8} (h : ∀ b ∈ l, isdigit b) : Inline l :=
  ⟨fun h0 => absurd (h 0 h0) (by decide), fun hn => absurd (h _ hn) (by decide)⟩

theorem inline_cstr_of_forall {s : String} (h : (cstr s).all fun b => b != 0 && b != newline) :
    Inline (cstr s) := by
  simp only [List.all_eq_true, Bool.and_eq_true, bne_iff_ne, ne_eq] at h
  exact ⟨fun h0 => (h 0 h0).1 rfl, fun hn => (h _ hn).2 rfl⟩

/-! ### Decimal numbers -/

/-- The value of a run of decimal digits. -/
def digitsValue (ds : List UInt8) : Nat := ds.foldl (fun n d => 10 * n + (d.toNat - 48)) 0

/-- `printf("%u", n)`: `n` in decimal, most significant digit first. -/
def decimal (n : Nat) : List UInt8 :=
  if n = 0 then cstr "0" else (Nat.digits 10 n).reverse.map fun d => UInt8.ofNat (48 + d)

theorem digitsValue_reverse_map (l : List Nat) (hl : ∀ d ∈ l, d < 10) :
    digitsValue (l.reverse.map fun d => UInt8.ofNat (48 + d)) = Nat.ofDigits 10 l := by
  rw [digitsValue, List.map_reverse, List.foldl_reverse]
  induction l with
  | nil => rfl
  | cons d l ih =>
    have hd : (UInt8.ofNat (48 + d)).toNat - 48 = d := by
      rw [UInt8.toNat_ofNat_mod]; have := hl d (List.mem_cons_self _ _); omega
    rw [List.map_cons, List.foldr_cons, ih fun e he => hl e (List.mem_cons_of_mem d he), hd,
      Nat.ofDigits_cons]
    ring

theorem digitsValue_decimal (n : Nat) : digitsValue (decimal n) = n := by
  unfold decimal
  split_ifs with h
  · subst h; decide
  · rw [digitsValue_reverse_map _ fun d hd => Nat.digits_lt_base (by norm_num) hd,
      Nat.ofDigits_digits]

theorem isdigit_decimal (n : Nat) : ∀ b ∈ decimal n, isdigit b := by
  unfold decimal
  split_ifs
  · decide
  · simp only [List.mem_map, List.mem_reverse]
    rintro _ ⟨d, hd, rfl⟩
    have := Nat.digits_lt_base (by norm_num) hd
    simp only [isdigit, UInt8.toNat_ofNat_mod, Bool.and_eq_true, decide_eq_true_eq]
    omega

theorem decimal_ne_nil (n : Nat) : decimal n ≠ [] := by
  unfold decimal
  split_ifs with h
  · decide
  · simpa using Nat.digits_ne_nil_iff_ne_zero.2 h

/-- `ULLONG_MAX`, where `strtoull` saturates; also `ULONG_MAX` on LP64. -/
def ULLONG_MAX : Nat := 2 ^ 64 - 1

/-- `strtoull(s, &end, 10)` on a string that starts with a digit, its only use here (both
callers test `isdigit` first, so the leading space and sign `strtoull` would skip never
occur): the value of the leading digits, saturated at `ULLONG_MAX`, and the text from
`end` on. -/
def strtoull (s : List UInt8) : Nat × List UInt8 :=
  (min (digitsValue (s.takeWhile isdigit)) ULLONG_MAX, s.dropWhile isdigit)

/-- `strtoul(s, &end, 10)`: the same on LP64, where `unsigned long` has 64 bits. -/
def strtoul (s : List UInt8) : Nat × List UInt8 := strtoull s

/-- `NUM(max)`: the value as an unsigned decimal of at most `max`, or `none` where the
macro `break`s out of the line loop. -/
def NUM (max : Nat) (value : List UInt8) : Option Nat :=
  if !isdigit (value.headD 0) then none
  else
    let (num, rest) := strtoull value
    if rest.headD 0 ≠ 0 ∨ num > max then none else some num

theorem takeWhile_dropWhile_of_all {l : List UInt8} (h : ∀ b ∈ l, isdigit b) :
    l.takeWhile isdigit = l ∧ l.dropWhile isdigit = [] :=
  ⟨List.takeWhile_eq_self_iff.2 h, List.dropWhile_eq_nil_iff.2 h⟩

/-- `%u` output reads back through `strtoull`, which stops at its end. -/
theorem strtoull_decimal {n : Nat} (h : n ≤ ULLONG_MAX) : strtoull (decimal n) = (n, []) := by
  obtain ⟨ht, hd⟩ := takeWhile_dropWhile_of_all (isdigit_decimal n)
  rw [strtoull, ht, hd, digitsValue_decimal, Nat.min_eq_left h]

theorem isdigit_headD_decimal (n : Nat) : isdigit ((decimal n).headD 0) := by
  obtain ⟨b, l, hbl⟩ := List.exists_cons_of_ne_nil (decimal_ne_nil n)
  rw [hbl]
  exact isdigit_decimal n b (hbl ▸ List.mem_cons_self b l)

/-- `%u` output reads back through `NUM`. -/
theorem NUM_decimal {max n : Nat} (h : n ≤ max) (hmax : max ≤ ULLONG_MAX) :
    NUM max (decimal n) = some n := by
  simp only [NUM, strtoull_decimal (h.trans hmax), isdigit_headD_decimal, Bool.not_true,
    List.headD_nil]
  simp [Nat.not_lt.2 h]

/-- **What `NUM` accepts**, for every bound below `ULLONG_MAX`: a non-empty run of digits
whose value is at most the bound, and then exactly that value.  A value holds no NUL,
since it is read as a C string. -/
theorem NUM_eq_some_iff {max n : Nat} {value : List UInt8} (hmax : max < ULLONG_MAX)
    (h0 : 0 ∉ value) :
    NUM max value = some n ↔
      value ≠ [] ∧ (∀ b ∈ value, isdigit b) ∧ digitsValue value = n ∧ n ≤ max := by
  constructor
  · intro h
    simp only [NUM, strtoull] at h
    split at h; · cases h
    rename_i hd
    split at h; · cases h
    rename_i hbad
    obtain rfl := Option.some.inj h
    simp only [not_or, not_lt, ne_eq, Decidable.not_not] at hbad
    -- the text after the digits starts with its terminator, so it is empty
    have hrest : value.dropWhile isdigit = [] := by
      rcases hr : value.dropWhile isdigit with _ | ⟨c, r⟩
      · rfl
      · have hc : c = 0 := by simpa [hr] using hbad.1
        have hmem : c ∈ value := (List.dropWhile_suffix isdigit).mem (by rw [hr]; exact List.mem_cons_self c r)
        exact absurd (hc ▸ hmem) h0
    have hall : ∀ b ∈ value, isdigit b := List.dropWhile_eq_nil_iff.1 hrest
    rw [List.takeWhile_eq_self_iff.2 hall] at hbad ⊢
    refine ⟨?_, hall, (Nat.min_eq_left (by omega)).symm, hbad.2⟩
    rintro rfl; simp [isdigit] at hd
  · rintro ⟨hne, hall, rfl, hle⟩
    obtain ⟨ht, hd⟩ := takeWhile_dropWhile_of_all hall
    obtain ⟨b, l, rfl⟩ := List.exists_cons_of_ne_nil hne
    have hb := hall b (List.mem_cons_self b l)
    simp only [NUM, strtoull, ht, hd, List.headD_cons, hb, Bool.not_true, List.headD_nil]
    rw [Nat.min_eq_left (by omega)]
    simp [Nat.not_lt.2 hle]

/-! ### Lines -/

theorem bne_of_not_mem {l : List UInt8} {c b : UInt8} (h : c ∉ l) (hb : b ∈ l) : (b != c) = true :=
  bne_iff_ne.2 fun e => h (e ▸ hb)

/-- The lines successive `getline` calls return: each runs to and includes its newline,
the last may have none, and none is empty. -/
def getlines : List UInt8 → List (List UInt8)
  | [] => []
  | b :: s =>
    if b = newline then [b] :: getlines s
    else match getlines s with
      | [] => [[b]]
      | l :: ls => (b :: l) :: ls

theorem getlines_line (l : List UInt8) (hl : newline ∉ l) (s : List UInt8) :
    getlines (l ++ newline :: s) = (l ++ [newline]) :: getlines s := by
  induction l with
  | nil => simp [getlines]
  | cons b l ih =>
    have hb : b ≠ newline := fun h => hl (h ▸ List.mem_cons_self b l)
    rw [List.cons_append, getlines, if_neg hb, ih fun h => hl (List.mem_cons_of_mem b h)]
    rfl

/-- **Lines written one after the other are read back as those lines.** -/
theorem getlines_lines (ls : List (List UInt8)) (hls : ∀ l ∈ ls, newline ∉ l) (s : List UInt8) :
    getlines ((ls.map (· ++ [newline])).flatten ++ s) = ls.map (· ++ [newline]) ++ getlines s := by
  induction ls with
  | nil => rfl
  | cons l ls ih =>
    rw [List.map_cons, List.flatten_cons, List.append_assoc, List.append_assoc, List.singleton_append,
      getlines_line l (hls l (List.mem_cons_self l ls)),
      ih fun l' hl' => hls l' (List.mem_cons_of_mem l hl')]
    rfl

/-- What the loop of `userspace_get_device` makes of a line. -/
inductive Line where
  /-- The lone newline that ends a reply. -/
  | blank
  /-- A `key=value` line, cut at its first `=`, the newline dropped. -/
  | pair (key value : List UInt8)
  /-- A line without `=` or without a newline before its first NUL: the loop `break`s. -/
  | bad
deriving DecidableEq, Repr

/-- The tests and cuts of the loop body on one line, read as the C string up to its first
NUL (`strlen`, `strchr`). -/
def parseLine (line : List UInt8) : Line :=
  let s := line.takeWhile (· != 0)
  if s = [newline] then .blank
  else if equalsSign ∈ s ∧ s.getLast? = some newline then
    .pair (s.takeWhile (· != equalsSign)) ((s.dropWhile (· != equalsSign)).tail.dropLast)
  else .bad

/-- **A written `key=value` line splits back into its key and its value.** -/
theorem parseLine_pair {key value : List UInt8} (hk : equalsSign ∉ key) (hkey : Inline key)
    (hvalue : Inline value) :
    parseLine (key ++ equalsSign :: value ++ [newline]) = .pair key value := by
  have hnul : (key ++ equalsSign :: value ++ [newline]).takeWhile (· != 0) =
      key ++ equalsSign :: value ++ [newline] := by
    refine List.takeWhile_eq_self_iff.2 fun b hb => ?_
    simp only [List.append_assoc, List.mem_append, List.mem_cons, List.mem_singleton,
      List.not_mem_nil, or_false] at hb
    rcases hb with hb | (rfl | hb) | rfl
    · exact bne_iff_ne.2 fun h => hkey.1 (h ▸ hb)
    · decide
    · exact bne_iff_ne.2 fun h => hvalue.1 (h ▸ hb)
    · decide
  have hne : key ++ equalsSign :: value ++ [newline] ≠ [newline] := by
    intro h
    have := congrArg List.length h
    simp at this
    omega
  have hkw : (key ++ equalsSign :: value ++ [newline]).takeWhile (· != equalsSign) = key := by
    rw [List.append_assoc, List.takeWhile_append_of_pos fun b hb => bne_of_not_mem hk hb]
    simp [equalsSign]
  have hdw : (key ++ equalsSign :: value ++ [newline]).dropWhile (· != equalsSign) =
      equalsSign :: value ++ [newline] := by
    rw [List.append_assoc, List.dropWhile_append_of_pos fun b hb => bne_of_not_mem hk hb]
    simp [equalsSign]
  have hlast : (key ++ equalsSign :: value ++ [newline]).getLast? = some newline :=
    List.getLast?_concat ..
  simp only [parseLine, hnul]
  rw [if_neg hne, if_pos ⟨by simp, hlast⟩, hkw, hdw]
  simp

/-- A value the loop reads holds no NUL. -/
theorem nul_not_mem_of_parseLine {line key value : List UInt8}
    (h : parseLine line = .pair key value) : 0 ∉ value := by
  simp only [parseLine] at h
  split_ifs at h
  simp only [Line.pair.injEq] at h
  obtain ⟨-, rfl⟩ := h
  intro h0
  have hs := List.mem_takeWhile_imp ((List.dropWhile_suffix _).mem
    (List.mem_of_mem_tail (List.mem_of_mem_dropLast h0)))
  simp at hs

/-! ### The values that carry an address -/

/-- The host and service of an `endpoint` value: `[host]:service`, or `host:service` cut at
the last colon; `none` where the code `break`s. -/
def endpointHostService (value : List UInt8) : Option (List UInt8 × List UInt8) :=
  match value with
  | [] => none
  | b :: v =>
    if b = openBracket then
      -- `end = strchr(value, ']'); *end++ = '\0'; if (*end++ != ':' || !*end) break;`
      match v.dropWhile (· != closeBracket) with
      | _ :: c :: service =>
        if c = colon ∧ service ≠ [] then some (v.takeWhile (· != closeBracket), service) else none
      | _ => none
    else
      -- `end = strrchr(value, ':'); if (!end || !*(end + 1)) break; *end++ = '\0';`
      match value.reverse.dropWhile (· != colon) with
      | [] => none
      | _ :: host =>
        let service := (value.reverse.takeWhile (· != colon)).reverse
        if service = [] then none else some (host.reverse, service)

/-- A bracketed endpoint splits back into its host and service. -/
theorem endpointHostService_bracket {host service : List UInt8} (hh : closeBracket ∉ host)
    (hs : service ≠ []) :
    endpointHostService (openBracket :: host ++ closeBracket :: colon :: service) =
      some (host, service) := by
  have hpos : ∀ b ∈ host, (b != closeBracket) = true := fun b hb => bne_of_not_mem hh hb
  simp only [endpointHostService, List.cons_append, if_pos rfl,
    List.dropWhile_append_of_pos hpos, List.takeWhile_append_of_pos hpos]
  simp [closeBracket, colon, hs]

/-- An endpoint written without brackets splits back at its last colon. -/
theorem endpointHostService_plain {host service : List UInt8}
    (hh : host.head? ≠ some openBracket) (hs : service ≠ []) (hsc : colon ∉ service) :
    endpointHostService (host ++ colon :: service) = some (host, service) := by
  have hpos : ∀ b ∈ service.reverse, (b != colon) = true := fun b hb =>
    bne_of_not_mem (by simpa using hsc) hb
  have hrev : (host ++ colon :: service).reverse = service.reverse ++ colon :: host.reverse := by
    simp
  obtain ⟨b, v, hbv⟩ : ∃ b v, host ++ colon :: service = b :: v :=
    List.exists_cons_of_ne_nil (by simp)
  have hb : b ≠ openBracket := by
    cases host with
    | nil => simp only [List.nil_append, List.cons.injEq] at hbv; rw [← hbv.1]; decide
    | cons c host =>
      simp only [List.cons_append, List.cons.injEq] at hbv
      exact fun h => hh (by simp [hbv.1, h])
  rw [hbv]
  simp only [endpointHostService, if_neg hb]
  rw [← hbv, hrev, List.dropWhile_append_of_pos hpos, List.takeWhile_append_of_pos hpos]
  simp [colon, hs]

/-- `ip = strsep(&mask, "/")` with `mask = value`: the text before the first `/`, and the
text after it (`NULL` when there is no `/`). -/
def strsepSlash (value : List UInt8) : List UInt8 × Option (List UInt8) :=
  match value.dropWhile (· != slash) with
  | [] => (value, none)
  | _ :: mask => (value.takeWhile (· != slash), some mask)

theorem strsepSlash_append {ip mask : List UInt8} (h : slash ∉ ip) :
    strsepSlash (ip ++ slash :: mask) = (ip, some mask) := by
  have hpos : ∀ b ∈ ip, (b != slash) = true := fun b hb => bne_of_not_mem h hb
  simp only [strsepSlash, List.dropWhile_append_of_pos hpos, List.takeWhile_append_of_pos hpos]
  simp [slash]

end WireguardIpc
