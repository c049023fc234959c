/-
`userspace_get_wireguard_interfaces`: the interfaces userspace implementations serve, one
socket `SOCK_PATH <name>.sock` each.

The loop reads the socket directory and hands `string_list_add` the stem of each entry that
is longer than `.sock`, ends in it, and whose socket `userspace_has_wireguard_interface`
accepts.  What the directory lists and what each socket path answers belong to the system and
are given.  The loop is `enumerate` over those stems (`userspaceGetWireguardInterfaces_eq`),
with a directory that does not exist read as an empty one, and every stem is the whole name
but its suffix (`sockInterface_eq_some_iff`).  The socket path is not modelled: each name's
`SocketProbe` is what the system answers for the path the code builds from it.
-/
import WireguardIpc.StringList
import WireguardIpc.Userspace.Text

namespace WireguardIpc

/-- `SOCK_SUFFIX`. -/
def SOCK_SUFFIX : List UInt8 := cstr ".sock"

/-- What the system answers for one interface's socket path, to
`userspace_has_wireguard_interface` and `userspace_interface_file` alike. -/
structure SocketProbe where
  /-- `stat` on the path: the `errno` it fails with, or whether the mode is `S_ISSOCK`. -/
  stat : Except Nat Bool
  /-- The `errno` `socket(AF_UNIX, SOCK_STREAM, 0)` fails with, `none` when it succeeds. -/
  socketErrno : Option Nat
  /-- The `errno` `connect` fails with, `none` when it connects. -/
  connectErrno : Option Nat

/-- `userspace_has_wireguard_interface(iface)`: a name without `/` whose path is a socket that
does not refuse the connection.  A connection that fails otherwise still counts; one refused
has the code unlink the path, which the model leaves out. -/
def userspaceHasWireguardInterface (iface : List UInt8) (probe : SocketProbe) : Bool :=
  if slash ∈ cstring iface then false
  else
    match probe.stat with
    | .error _ => false
    | .ok isSock =>
      if !isSock then false
      else if probe.socketErrno.isSome then false
      else if probe.connectErrno = some ECONNREFUSED then false
      else true

/-- `userspace_interface_file(iface)`, given the `errno` `fdopen` fails with: the `errno` it
returns `NULL` with, `none` when it returns the stream. -/
def userspaceInterfaceFile (iface : List UInt8) (probe : SocketProbe) (fdopenErrno : Option Nat) :
    Option Nat :=
  if slash ∈ cstring iface then some EINVAL
  else
    match probe.stat with
    | .error errno => some errno
    | .ok isSock =>
      if !isSock then some EBADF
      else
        match probe.socketErrno with
        | some errno => some errno
        | none =>
          match probe.connectErrno with
          | some errno => some errno
          | none => fdopenErrno

/-- **The check and the opener agree.**  A name `userspace_has_wireguard_interface` accepts,
and so sends to the userspace backend, is one `userspace_interface_file` opens unless its
`connect` fails with an `errno` other than `ECONNREFUSED` or its `fdopen` fails; a name the
check refuses, the opener refuses too. -/
theorem userspaceInterfaceFile_of_has (iface : List UInt8) (probe : SocketProbe)
    (fdopenErrno : Option Nat) :
    (userspaceHasWireguardInterface iface probe = true →
      userspaceInterfaceFile iface probe fdopenErrno = probe.connectErrno.or fdopenErrno) ∧
    (userspaceHasWireguardInterface iface probe = false →
      (userspaceInterfaceFile iface probe fdopenErrno).isSome) := by
  unfold userspaceHasWireguardInterface userspaceInterfaceFile
  by_cases hslash : slash ∈ cstring iface
  · simp [hslash]
  simp only [hslash, if_false]
  rcases probe.stat with errno | isSock
  · simp
  cases isSock
  · simp
  rcases probe.socketErrno with _ | errno
  · rcases probe.connectErrno with _ | errno
    · simp
    · by_cases h : errno = ECONNREFUSED <;> simp [h]
  · simp

/-- What `userspace_get_wireguard_interfaces` meets: the `errno` `opendir(SOCK_PATH)` fails
with (`none`: it opens the directory), the `d_name`s `readdir` returns in turn, and what the
socket path of each name answers. -/
structure SockDir where
  opendirErrno : Option Nat
  entries : List (List UInt8)
  probe : List UInt8 → SocketProbe

/-- The `while ((ent = readdir(dir)))` loop over the entries left, `ret` as the last call
left it. -/
def readdirLoop (probe : List UInt8 → SocketProbe) (ret : Int) (s : EnumState) :
    List (List UInt8) → Option (Int × EnumState)
  | [] => some (ret, s)
  | name :: entries =>
    let len := (cstring name).length
    if len ≤ SOCK_SUFFIX.length then readdirLoop probe ret s entries
    else if (cstring name).drop (len - SOCK_SUFFIX.length) ≠ SOCK_SUFFIX then
      readdirLoop probe ret s entries
    else
      let iface := (cstring name).take (len - SOCK_SUFFIX.length)
      if !userspaceHasWireguardInterface iface (probe iface) then readdirLoop probe ret s entries
      else
        match s.add iface with
        | none => none
        | some (ret, s) => if ret < 0 then some (ret, s) else readdirLoop probe ret s entries

/-- `userspace_get_wireguard_interfaces(list)`. -/
def userspaceGetWireguardInterfaces (dir : SockDir) (s : EnumState) : Option (Int × EnumState) :=
  match dir.opendirErrno with
  | some errno => some (if errno = ENOENT then 0 else -(errno : Int), s)
  | none => readdirLoop dir.probe 0 s dir.entries

/-! ### The stems it adds -/

/-- The interface the loop adds for a directory entry, if any. -/
def sockInterface (probe : List UInt8 → SocketProbe) (name : List UInt8) : Option (List UInt8) :=
  let len := (cstring name).length
  if len ≤ SOCK_SUFFIX.length ∨ (cstring name).drop (len - SOCK_SUFFIX.length) ≠ SOCK_SUFFIX then
    none
  else
    let iface := (cstring name).take (len - SOCK_SUFFIX.length)
    if userspaceHasWireguardInterface iface (probe iface) then some iface else none

/-- The strings the loop hands `string_list_add`. -/
def sockNames (dir : SockDir) : List (List UInt8) :=
  match dir.opendirErrno with
  | some _ => []
  | none => dir.entries.filterMap (sockInterface dir.probe)

/-- The error it returns of its own: `opendir`'s, unless the directory does not exist. -/
def sockError (dir : SockDir) : Option Nat :=
  match dir.opendirErrno with
  | some errno => if errno = ENOENT then none else some errno
  | none => none

/-- The interface added for an entry is its name without `.sock`, when that is not empty and
its socket answers. -/
theorem sockInterface_eq_some_iff (probe : List UInt8 → SocketProbe) (name iface : List UInt8) :
    sockInterface probe name = some iface ↔
      cstring name = iface ++ SOCK_SUFFIX ∧ iface ≠ [] ∧
        userspaceHasWireguardInterface iface (probe iface) := by
  have hsuf : SOCK_SUFFIX.length = 5 := rfl
  constructor
  · intro h
    simp only [sockInterface] at h
    split_ifs at h with h₁ h₂
    obtain rfl := (Option.some.inj h).symm
    refine ⟨?_, ?_, h₂⟩
    · conv_lhs => rw [← List.take_append_drop ((cstring name).length - SOCK_SUFFIX.length)
        (cstring name)]
      rw [not_or, not_not] at h₁
      rw [h₁.2]
    · rw [not_or] at h₁
      apply List.ne_nil_of_length_pos
      rw [List.length_take]
      omega
  · rintro ⟨hname, hne, hyes⟩
    simp [sockInterface, hname, hyes, hne]

theorem StringList.append_ret {list : StringList} {str : List UInt8} {len : UInt64} {ret : Int}
    {list' : StringList} (h : list.append str len = some (ret, list')) : ret = 0 := by
  simp only [StringList.append, Option.bind_eq_bind, Option.bind_eq_some, Option.pure_def,
    Option.some.injEq, Prod.mk.injEq] at h
  obtain ⟨_, _, _, _, _, _, h, _⟩ := h
  exact h.symm

/-- `string_list_add` returns `0` or `-ENOMEM`. -/
theorem stringListAdd_ret {list : StringList} {str : List UInt8} {realloc : Option (Nat → UInt8)}
    {ret : Int} {list' : StringList} (h : stringListAdd list str realloc = some (ret, list')) :
    ret = 0 ∨ ret = -(ENOMEM : Int) := by
  unfold stringListAdd at h
  by_cases h₁ : UInt64.ofNat (cstring str).length + 1 = 1
  · rw [if_pos h₁] at h
    exact .inl (Prod.mk.inj (Option.some.inj h)).1.symm
  rw [if_neg h₁] at h
  by_cases h₂ : UInt64.ofNat (cstring str).length + 1 ≥ list.cap - list.len
  · rw [if_pos h₂] at h
    cases realloc with
    | none => exact .inr (Prod.mk.inj (Option.some.inj h)).1.symm
    | some fill => exact .inl (StringList.append_ret h)
  · rw [if_neg h₂] at h
    exact .inl (StringList.append_ret h)

/-- A call that does not fail returns `0`. -/
theorem EnumState.add_ret {s s' : EnumState} {str : List UInt8} {ret : Int}
    (h : s.add str = some (ret, s')) (hret : ¬ret < 0) : ret = 0 := by
  simp only [EnumState.add, Option.map_eq_some'] at h
  obtain ⟨⟨r, l⟩, hadd, heq⟩ := h
  obtain rfl := (Prod.mk.inj heq).1
  rcases stringListAdd_ret hadd with h | h
  · exact h
  · exact absurd (h ▸ by simp [ENOMEM] : r < 0) hret

theorem readdirLoop_eq (probe : List UInt8 → SocketProbe) (s : EnumState)
    (entries : List (List UInt8)) :
    readdirLoop probe 0 s entries =
      (s.addAll (entries.filterMap (sockInterface probe))).map (EnumState.finish none) := by
  induction entries generalizing s with
  | nil => rfl
  | cons name entries ih =>
    dsimp only [readdirLoop, List.filterMap_cons]
    by_cases h₁ : (cstring name).length ≤ SOCK_SUFFIX.length
    · rw [if_pos h₁, show sockInterface probe name = none by simp [sockInterface, h₁]]
      exact ih s
    by_cases h₂ : (cstring name).drop ((cstring name).length - SOCK_SUFFIX.length) = SOCK_SUFFIX
    swap
    · rw [if_neg h₁, if_pos h₂, show sockInterface probe name = none by simp [sockInterface, h₂]]
      exact ih s
    rw [if_neg h₁, if_neg (not_not.2 h₂)]
    by_cases h₃ : userspaceHasWireguardInterface
        ((cstring name).take ((cstring name).length - SOCK_SUFFIX.length))
        (probe ((cstring name).take ((cstring name).length - SOCK_SUFFIX.length)))
    · rw [if_neg (by simp [h₃]), show sockInterface probe name =
          some ((cstring name).take ((cstring name).length - SOCK_SUFFIX.length)) by
        simp [sockInterface, h₁, h₂, h₃]]
      simp only [EnumState.addAll, Option.bind_eq_bind]
      rcases hadd : s.add ((cstring name).take ((cstring name).length - SOCK_SUFFIX.length))
        with _ | ⟨ret, s'⟩
      · rfl
      · by_cases hret : ret < 0
        · simp only [if_pos hret, Option.some_bind]; rfl
        · obtain rfl := EnumState.add_ret hadd hret
          simp only [if_neg hret, Option.some_bind, ih]
    · rw [if_pos (by simp [h₃]), show sockInterface probe name = none by
        simp [sockInterface, h₁, h₂, h₃]]
      exact ih s

/-- **The userspace enumeration is `enumerate`** over the stems of the `<stem>.sock` entries
whose sockets answer, with `opendir`'s error unless the directory does not exist. -/
theorem userspaceGetWireguardInterfaces_eq (dir : SockDir) (s : EnumState) :
    (userspaceGetWireguardInterfaces dir s).map (fun r => (r.1, r.2.list)) =
      enumerate s.list (withReallocs (sockNames dir) s.reallocs) (sockError dir) := by
  rw [enumerate_withReallocs]
  unfold userspaceGetWireguardInterfaces sockNames sockError
  rcases dir.opendirErrno with _ | errno
  · rw [readdirLoop_eq, Option.map_map]; rfl
  · by_cases h : errno = ENOENT <;> simp [h, EnumState.finish]

/-- **`userspace_get_wireguard_interfaces` lists the sockets that answer.**  The run is
`enumerate` over the stems it adds, in the order `readdir` returns their entries, with
`opendir`'s error unless the directory does not exist; and an interface is among them exactly
when the directory opens and has an entry `<interface>.sock`, with a non-empty stem, whose
socket `userspace_has_wireguard_interface` accepts. -/
theorem userspaceGetWireguardInterfaces_lists_sockets (dir : SockDir) (s : EnumState) :
    (userspaceGetWireguardInterfaces dir s).map (fun r => (r.1, r.2.list)) =
      enumerate s.list (withReallocs (sockNames dir) s.reallocs) (sockError dir) ∧
    ∀ iface, iface ∈ sockNames dir ↔ dir.opendirErrno = none ∧
      ∃ name ∈ dir.entries, cstring name = iface ++ SOCK_SUFFIX ∧ iface ≠ [] ∧
        userspaceHasWireguardInterface iface (dir.probe iface) := by
  refine ⟨userspaceGetWireguardInterfaces_eq dir s, fun iface => ?_⟩
  unfold sockNames
  rcases dir.opendirErrno with _ | errno
  · simp [List.mem_filterMap, sockInterface_eq_some_iff]
  · simp

end WireguardIpc
