/-
`kernel_get_wireguard_interfaces` on OpenBSD and FreeBSD: the members of the interface
group `wg`.

A first `SIOCGIFGMEMB` reports the size of the member list in `ifgr_len`, a buffer of that
size is `calloc`ed, and a second one fills it with `struct ifg_req` records, each an
`IFNAMSIZ`-byte member name.  The loop then hands each record's name to `string_list_add`,
taking `sizeof(struct ifg_req)` off the unsigned `ifgr_len` for each, until it is `0`.

The loop relies on that length being a whole number of records.  When it is, and each record
holds its name's NUL, the loop is `enumerate` over the records' names
(`kernelGetWireguardInterfaces_eq`).  When it is not, the subtraction wraps around instead
of reaching `0`, so the loop runs on past the last record and reads outside the buffer,
unless a `string_list_add` fails first (`groupsLoop_reads_past`).
-/
import WireguardIpc.Openbsd.Flat
import WireguardIpc.Userspace.Sockets

namespace WireguardIpc

namespace Openbsd

/-- `sizeof(struct ifg_req)`: a union of `IFNAMSIZ` bytes. -/
def IFG_REQ_LEN : Nat := 16

/-- The C string at `off`, as `strlen` reads it: `none` when the block ends before a NUL. -/
def Block.cstringAt (b : Block) (off : Nat) : Option (List UInt8) :=
  if 0 ∈ b.read off (b.size - off) then some (cstring (b.read off (b.size - off))) else none

/-- What `kernel_get_wireguard_interfaces` meets: the `errno` the datagram socket fails with
(`none`: it is open); what the first `SIOCGIFGMEMB` for the group answers, its `errno` or the
`ifgr_len` it reports; whether `calloc(1, ifgr_len)` succeeds; and what the second answers,
its `errno` or the bytes it leaves in the buffer. -/
structure GroupReply where
  sockErrno : Option Nat
  size : Except Nat UInt32
  callocOk : Bool
  members : Except Nat (Nat → UInt8)

/-- `for (ifg = ifgr.ifgr_groups; ifg && ifgr.ifgr_len > 0; ++ifg)` from the record at `off`,
with `ifgr_len` at `len` and `ret` as the last call left it; `fuel` bounds the passes. -/
def groupsLoop (groups : Block) (ret : Int) (s : EnumState) (len : UInt32) (off : Nat) :
    Nat → Option (Int × EnumState)
  | 0 => none
  | fuel + 1 =>
    if 0 < len then
      match groups.cstringAt off with
      | none => none
      | some member =>
        match s.add member with
        | none => none
        | some (ret, s) =>
          if ret < 0 then some (ret, s)
          else groupsLoop groups ret s (len - UInt32.ofNat IFG_REQ_LEN) (off + IFG_REQ_LEN) fuel
    else some (ret, s)

/-- `kernel_get_wireguard_interfaces(list)` on OpenBSD and FreeBSD.  The loop gets a pass for
each whole record the buffer holds and one more: enough to end, or to read past the buffer. -/
def kernelGetWireguardInterfaces (reply : GroupReply) (s : EnumState) : Option (Int × EnumState) :=
  match reply.sockErrno with
  | some errno => some (-(errno : Int), { s with errno })
  | none =>
    match reply.size with
    | .error errno => some (if errno = ENOENT then 0 else -(errno : Int), { s with errno })
    | .ok len =>
      if !reply.callocOk then some (-(ENOMEM : Int), { s with errno := ENOMEM })
      else
        match reply.members with
        | .error errno => some (-(errno : Int), { s with errno })
        | .ok bytes => groupsLoop ⟨len.toNat, bytes⟩ 0 s len 0 (len.toNat / IFG_REQ_LEN + 1)

/-! ### Whole records -/

/-- The names of `n` records from `off`: each record's bytes up to its first NUL. -/
def groupMembers (b : Block) (off : Nat) : Nat → List (List UInt8)
  | 0 => []
  | n + 1 => cstring (b.read off IFG_REQ_LEN) :: groupMembers b (off + IFG_REQ_LEN) n

/-- What the kernel's answers promise: `ifgr_len` counts whole records, and each record of
the buffer holds a NUL. -/
def GroupReply.Whole (reply : GroupReply) : Prop :=
  ∀ len, reply.size = .ok len → len.toNat % IFG_REQ_LEN = 0 ∧
    ∀ bytes, reply.members = .ok bytes → ∀ k < len.toNat / IFG_REQ_LEN,
      0 ∈ (Block.mk len.toNat bytes).read (IFG_REQ_LEN * k) IFG_REQ_LEN

/-- The names the enumeration hands `string_list_add`. -/
def groupNames (reply : GroupReply) : List (List UInt8) :=
  match reply.sockErrno, reply.size, reply.callocOk, reply.members with
  | none, .ok len, true, .ok bytes => groupMembers ⟨len.toNat, bytes⟩ 0 (len.toNat / IFG_REQ_LEN)
  | _, _, _, _ => []

/-- The error it returns of its own: the first failure's, none when the group does not exist. -/
def groupError (reply : GroupReply) : Option Nat :=
  match reply.sockErrno, reply.size, reply.callocOk, reply.members with
  | some errno, _, _, _ => some errno
  | none, .error errno, _, _ => if errno = ENOENT then none else some errno
  | none, .ok _, false, _ => some ENOMEM
  | none, .ok _, true, .error errno => some errno
  | none, .ok _, true, .ok _ => none

theorem Block.read_add (b : Block) (off m n : Nat) :
    b.read off (m + n) = b.read off m ++ b.read (off + m) n := by
  simp [Block.read, List.range_add, Nat.add_assoc]

theorem cstring_append_of_mem {l : List UInt8} (h : 0 ∈ l) (rest : List UInt8) :
    cstring (l ++ rest) = cstring l := by
  induction l with
  | nil => cases h
  | cons a l ih =>
    by_cases ha : a = 0
    · simp [cstring, ha]
    · have hl : 0 ∈ l := (List.mem_cons.1 h).resolve_left fun h0 => ha h0.symm
      have := ih hl
      simp only [cstring] at this ⊢
      simp [ha, this]

/-- A record that holds a NUL is read up to it, inside the record. -/
theorem Block.cstringAt_record {b : Block} {off : Nat} (hin : off + IFG_REQ_LEN ≤ b.size)
    (h : 0 ∈ b.read off IFG_REQ_LEN) : b.cstringAt off = some (cstring (b.read off IFG_REQ_LEN)) := by
  have hsplit : b.read off (b.size - off) =
      b.read off IFG_REQ_LEN ++ b.read (off + IFG_REQ_LEN) (b.size - off - IFG_REQ_LEN) := by
    rw [← Block.read_add]; congr 1; omega
  rw [Block.cstringAt, hsplit, if_pos (List.mem_append_left _ h), cstring_append_of_mem h]

/-- `strlen` only finds a string that starts inside the block. -/
theorem Block.lt_of_cstringAt {b : Block} {off : Nat} {member : List UInt8}
    (h : b.cstringAt off = some member) : off < b.size := by
  unfold Block.cstringAt at h
  split_ifs at h with h0
  have := List.length_pos_of_mem h0
  rw [Block.length_read] at this
  omega

theorem toNat_sub_record {len : UInt32} (h : IFG_REQ_LEN ≤ len.toNat) :
    (len - UInt32.ofNat IFG_REQ_LEN).toNat = len.toNat - IFG_REQ_LEN := by
  have hlt := len.toNat_lt_size
  show (2 ^ 32 - 16 + len.toNat) % 2 ^ 32 = len.toNat - 16
  simp only [UInt32.size, IFG_REQ_LEN] at hlt h
  omega

theorem toNat_sub_record_mod (len : UInt32) :
    (len - UInt32.ofNat IFG_REQ_LEN).toNat % IFG_REQ_LEN = len.toNat % IFG_REQ_LEN := by
  have hlt := len.toNat_lt_size
  show (2 ^ 32 - 16 + len.toNat) % 2 ^ 32 % 16 = len.toNat % 16
  simp only [UInt32.size] at hlt
  omega

/-- **Over whole records holding their NULs**, the loop is the calls for their names. -/
theorem groupsLoop_whole (b : Block) (n : Nat) : ∀ (s : EnumState) (len : UInt32) (off fuel : Nat),
    len.toNat = IFG_REQ_LEN * n → off + IFG_REQ_LEN * n = b.size → n < fuel →
    (∀ k < n, 0 ∈ b.read (off + IFG_REQ_LEN * k) IFG_REQ_LEN) →
    groupsLoop b 0 s len off fuel = (s.addAll (groupMembers b off n)).map (EnumState.finish none) := by
  induction n with
  | zero =>
    intro s len off fuel hlen _ hfuel _
    obtain ⟨fuel, rfl⟩ : ∃ f, fuel = f + 1 := ⟨fuel - 1, by omega⟩
    have hz : ¬0 < len := fun h => by
      have : 0 < len.toNat := h
      omega
    simp only [groupsLoop, if_neg hz]
    rfl
  | succ n ih =>
    intro s len off fuel hlen hend hfuel hnul
    obtain ⟨fuel, rfl⟩ : ∃ f, fuel = f + 1 := ⟨fuel - 1, by omega⟩
    have hpos : 0 < len := show 0 < len.toNat by simp only [IFG_REQ_LEN] at hlen; omega
    have hrec := Block.cstringAt_record
      (show off + IFG_REQ_LEN ≤ b.size by simp only [IFG_REQ_LEN] at hend ⊢; omega)
      (show 0 ∈ b.read off IFG_REQ_LEN by simpa using hnul 0 (Nat.succ_pos n))
    simp only [groupsLoop, if_pos hpos, hrec, groupMembers, EnumState.addAll, Option.bind_eq_bind]
    rcases hadd : s.add (cstring (b.read off IFG_REQ_LEN)) with _ | ⟨r, s'⟩
    · rfl
    · by_cases hr : r < 0
      · simp only [if_pos hr, Option.some_bind]; rfl
      · obtain rfl := EnumState.add_ret hadd hr
        simp only [if_neg hr, Option.some_bind]
        refine ih s' _ _ fuel ?_ ?_ (by omega) fun k hk => ?_
        · rw [toNat_sub_record (by rw [hlen]; simp only [IFG_REQ_LEN]; omega), hlen]
          simp only [IFG_REQ_LEN]; omega
        · simp only [IFG_REQ_LEN] at hend ⊢; omega
        · have := hnul (k + 1) (by omega)
          rwa [show off + IFG_REQ_LEN * (k + 1) = off + IFG_REQ_LEN + IFG_REQ_LEN * k by ring]
            at this

/-- **The BSD enumeration is `enumerate`** over the group's member names, when the kernel
answers with whole records, each holding its NUL. -/
theorem kernelGetWireguardInterfaces_eq (reply : GroupReply) (h : reply.Whole) (s : EnumState) :
    (kernelGetWireguardInterfaces reply s).map (fun r => (r.1, r.2.list)) =
      enumerate s.list (withReallocs (groupNames reply) s.reallocs) (groupError reply) := by
  rw [enumerate_withReallocs]
  unfold kernelGetWireguardInterfaces groupNames groupError
  rcases hsock : reply.sockErrno with _ | errno
  · rcases hsize : reply.size with errno | len
    · by_cases he : errno = ENOENT <;> simp [he, EnumState.finish]
    · cases hc : reply.callocOk
      · rfl
      rcases hm : reply.members with errno | bytes
      · rfl
      · obtain ⟨hmod, hnul⟩ := h len hsize
        simp only [Bool.not_true, Bool.false_eq_true, if_false]
        have h16 : IFG_REQ_LEN = 16 := rfl
        rw [h16] at hmod
        rw [groupsLoop_whole ⟨len.toNat, bytes⟩ (len.toNat / IFG_REQ_LEN) s len 0 _
          (by rw [h16]; omega) (by show 0 + IFG_REQ_LEN * _ = len.toNat; rw [h16]; omega)
          (by omega)
          (fun k hk => by simpa using hnul bytes hm k hk), Option.map_map]
        rfl
  · rfl

/-! ### A length that is not a whole number of records -/

/-- **Past the last record.**  With a length that is not a whole number of records, the
subtraction wraps around and never reaches `0`: the loop either stops at a failed
`string_list_add` or reads past the buffer, whose end it reaches within its passes. -/
theorem groupsLoop_reads_past (b : Block) : ∀ (fuel : Nat) (ret : Int) (s : EnumState)
    (len : UInt32) (off : Nat), len.toNat % IFG_REQ_LEN ≠ 0 → b.size < off + IFG_REQ_LEN * fuel →
    ∀ r s', groupsLoop b ret s len off fuel = some (r, s') → r = -(ENOMEM : Int)
  | 0, _, _, _, _, _, _, _, _, h => by cases h
  | fuel + 1, ret, s, len, off, hmod, hsize, r, s', h => by
    have hpos : 0 < len := show 0 < len.toNat by simp only [IFG_REQ_LEN] at hmod; omega
    simp only [groupsLoop, if_pos hpos] at h
    rcases hc : b.cstringAt off with _ | member
    · simp [hc] at h
    rcases hadd : s.add member with _ | ⟨r', s''⟩
    · simp [hc, hadd] at h
    simp only [hc, hadd] at h
    by_cases hr : r' < 0
    · rw [if_pos hr] at h
      obtain ⟨rfl, rfl⟩ := Prod.mk.inj (Option.some.inj h)
      simp only [EnumState.add, Option.map_eq_some', Prod.mk.injEq] at hadd
      obtain ⟨⟨r₀, l⟩, hsl, rfl, -⟩ := hadd
      exact (stringListAdd_ret hsl).resolve_left (by omega)
    · rw [if_neg hr] at h
      exact groupsLoop_reads_past b fuel r' s'' _ _ (by rwa [toNat_sub_record_mod])
        (by simp only [IFG_REQ_LEN] at hsize ⊢; omega) r s' h

/-- **A length that is not a whole number of records never succeeds.**  With the socket open
and both `SIOCGIFGMEMB`s answering, the enumeration then reads past its buffer (`none`), or
ends with `-ENOMEM` when an allocation fails first; it never returns `0`. -/
theorem kernelGetWireguardInterfaces_not_whole (reply : GroupReply) (s : EnumState) {len : UInt32}
    {bytes : Nat → UInt8} (hsock : reply.sockErrno = none) (hsize : reply.size = .ok len)
    (hmembers : reply.members = .ok bytes) (hmod : len.toNat % IFG_REQ_LEN ≠ 0) :
    ∀ r s', kernelGetWireguardInterfaces reply s = some (r, s') → r = -(ENOMEM : Int) := by
  intro r s' h
  simp only [kernelGetWireguardInterfaces, hsock, hsize, hmembers] at h
  cases hc : reply.callocOk
  · simp only [hc, Bool.not_false, if_true, Option.some.injEq, Prod.mk.injEq] at h
    exact h.1.symm
  · simp only [hc, Bool.not_true, Bool.false_eq_true, if_false] at h
    exact groupsLoop_reads_past _ _ 0 s len 0 hmod
      (by show len.toNat < 0 + IFG_REQ_LEN * _; simp only [IFG_REQ_LEN]; omega) r s' h

/-- A length of 20 bytes: one record and four bytes. -/
theorem kernelGetWireguardInterfaces_not_whole_twenty :
    (20 : UInt32).toNat % IFG_REQ_LEN ≠ 0 ∧
      ∀ r s', kernelGetWireguardInterfaces ⟨none, .ok 20, true, .ok fun _ => 0⟩
        ⟨StringList.zero, [], 0⟩ = some (r, s') → r = -(ENOMEM : Int) :=
  ⟨by decide, kernelGetWireguardInterfaces_not_whole _ _ rfl rfl rfl (by decide)⟩

/-! ### `ipc_list_devices` on OpenBSD and FreeBSD -/

/-- **`ipc_list_devices` on OpenBSD and FreeBSD lists the members of the group `wg`, then the
userspace interfaces**, when the kernel answers with whole records, each holding its NUL.
Each enumeration is `enumerate` over its names: each record's name up to its NUL, in the
order of the buffer, then the stems of the `<stem>.sock` entries whose sockets answer.
While those fit in `size_t`, every buffer `ipc_list_devices` returns splits back into exactly
their C strings, empty ones left out (a record the kernel left zero), and it returns one
whenever every `realloc` and `strdup` succeeds and neither enumeration fails. -/
theorem ipcListDevices_lists_group_members (reply : GroupReply) (hwhole : reply.Whole)
    (dir : SockDir) (kernelReallocs userspaceReallocs : List (Option (Nat → UInt8)))
    (strdupOk : Bool)
    (hfit : (encodeNames ((groupNames reply ++ sockNames dir).flatMap addedName)).length + 1 ≤
      SIZE_MAX) :
    (∀ s : EnumState, s.reallocs = kernelReallocs →
      (kernelGetWireguardInterfaces reply s).map (fun r => (r.1, r.2.list)) =
        enumerate s.list (withReallocs (groupNames reply) kernelReallocs) (groupError reply)) ∧
    (∀ s : EnumState, s.reallocs = userspaceReallocs →
      (userspaceGetWireguardInterfaces dir s).map (fun r => (r.1, r.2.list)) =
        enumerate s.list (withReallocs (sockNames dir) userspaceReallocs) (sockError dir)) ∧
    ∃ r, ipcListDevices ⟨withReallocs (groupNames reply) kernelReallocs, groupError reply⟩
        ⟨withReallocs (sockNames dir) userspaceReallocs, sockError dir⟩ strdupOk = some r ∧
      (∀ buffer, r = some buffer →
        splitNames buffer = (groupNames reply ++ sockNames dir).flatMap addedName) ∧
      ((∀ x ∈ kernelReallocs ++ userspaceReallocs, x.isSome) → groupError reply = none →
        sockError dir = none → strdupOk → r.isSome) :=
  ⟨fun s hs => hs ▸ kernelGetWireguardInterfaces_eq reply hwhole s,
    fun s hs => hs ▸ userspaceGetWireguardInterfaces_eq dir s,
    ipcListDevices_withReallocs _ _ _ _ _ _ strdupOk hfit⟩

/-- A group of three records: `wg0`, one the kernel left zero, and `wg1`. -/
def wgGroup : GroupReply :=
  ⟨none, .ok 48, true, .ok fun i =>
    if i < 16 then (cstr "wg0").getD i 0 else if i < 32 then 0 else (cstr "wg1").getD (i - 32) 0⟩

/-- The group `wgGroup` and no socket directory: the list is `wg0` and `wg1`, the zero
record left out. -/
theorem ipcListDevices_lists_group_members_three :
    GroupReply.Whole wgGroup ∧
    ∃ buffer, ipcListDevices ⟨withReallocs (groupNames wgGroup) [], groupError wgGroup⟩
        ⟨withReallocs (sockNames ⟨some ENOENT, [], fun _ => ⟨.error ENOENT, none, none⟩⟩) [],
          sockError ⟨some ENOENT, [], fun _ => ⟨.error ENOENT, none, none⟩⟩⟩ true =
        some (some buffer) ∧ splitNames buffer = [cstr "wg0", cstr "wg1"] := by
  have hwhole : GroupReply.Whole wgGroup := by
    intro len hlen
    obtain rfl := Except.ok.inj hlen
    refine ⟨by decide, fun bytes hbytes => ?_⟩
    obtain rfl := Except.ok.inj hbytes
    decide
  obtain ⟨-, -, r, hr, hbuf, hsome⟩ := ipcListDevices_lists_group_members _ hwhole
    ⟨some ENOENT, [], fun _ => ⟨.error ENOENT, none, none⟩⟩ [] [] true (by decide)
  obtain ⟨buffer, rfl⟩ := Option.isSome_iff_exists.1 (hsome (by simp) rfl (by decide) rfl)
  exact ⟨hwhole, buffer, hr, (hbuf buffer rfl).trans (by decide)⟩

end Openbsd

end WireguardIpc
