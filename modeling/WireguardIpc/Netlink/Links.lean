/-
`kernel_get_wireguard_interfaces` on Linux: the WireGuard interfaces the kernel has, read
from an rtnetlink dump of every link.

The function sends one `RTM_GETLINK` dump request and reads the answer a batch at a time
(`goto another`), each batch through `mnl_cb_run`.  That hands each link's message to
`read_devices_cb`, which walks its attributes with `parse_infomsg` (and the link's
`IFLA_LINKINFO` with `parse_linkinfo`) and adds the link's name to the list when its kind is
`wireguard`.  A batch that ends in a link asks for the next one; `NLMSG_DONE`, an
acknowledgement, an empty batch or one that ends in `NLMSG_NOOP` ends the dump; an error ends
it with that error, except `EINTR` (the kernel flags a dump the links changed under as
interrupted), which ends it with the links read so far.

Two results.  The attribute walk finds a link's last `IFLA_IFNAME` and whether one of its
`IFLA_LINKINFO`s names the kind `wireguard` (`parseInfomsg_walk`).  And the whole run is
`enumerate` over the names of the WireGuard links the dump reports before it ends
(`kernelGetWireguardInterfaces_eq`): reading the dump never depends on the list, and a
failed `string_list_add` ends the run with its error.
-/
import WireguardIpc.Netlink.Attr
import WireguardIpc.Userspace.Sockets

namespace WireguardIpc

/-- `IFLA_IFNAME`. -/
def IFLA_IFNAME : Nat := 3
/-- `IFLA_LINKINFO`. -/
def IFLA_LINKINFO : Nat := 18
/-- `IFLA_INFO_KIND`. -/
def IFLA_INFO_KIND : Nat := 1
/-- `WG_GENL_NAME`. -/
def WG_GENL_NAME : List UInt8 := cstr "wireguard"

/-! ### The callbacks -/

/-- `struct interface`: the name found so far (the payload `mnl_attr_get_str` points into,
`NULL` at first) and whether the link is WireGuard's. -/
structure Interface where
  name : Option (List UInt8)
  isWireguard : Bool

/-- `parse_linkinfo`. -/
def parseLinkinfo (attr : Nlattr) (interface : Interface) : Option (Int × Interface) :=
  some (MNL_CB_OK,
    if attr.type = IFLA_INFO_KIND ∧ cstring attr.payload = WG_GENL_NAME then
      { interface with isWireguard := true }
    else interface)

/-- `parse_infomsg`. -/
def parseInfomsg (attr : Nlattr) (interface : Interface) : Option (Int × Interface) :=
  if attr.type = IFLA_LINKINFO then attrParse parseLinkinfo attr.nested interface
  else if attr.type = IFLA_IFNAME then
    some (MNL_CB_OK, { interface with name := some attr.payload })
  else some (MNL_CB_OK, interface)

/-- `read_devices_cb` on an `RTM_NEWLINK` message with these attributes after its
`ifinfomsg`.  `mnl_cb_run` hands it only messages of a type from `NLMSG_MIN_TYPE` on, never
`NLMSG_DONE`, so after a link it asks for more with `MNL_CB_OK + 1`. -/
def readDevicesCb (attrs : List Nlattr) (s : EnumState) : Option (Int × EnumState) :=
  match attrParse parseInfomsg attrs ⟨none, false⟩ with
  | none => none
  | some (ret, interface) =>
    if ret ≠ MNL_CB_OK then some (ret, s)
    else
      let added := match interface.name, interface.isWireguard with
        | some name, true => s.add name
        | _, _ => some (ret, s)
      match added with
      | none => none
      | some (ret, s) => if ret < 0 then some (ret, s) else some (MNL_CB_OK + 1, s)

/-! ### The dump -/

/-- One message of the dump, as `mnl_cb_run` dispatches it. -/
inductive LinkMsg where
  /-- `RTM_NEWLINK`, with these attributes after its `ifinfomsg`: `read_devices_cb`. -/
  | link (attrs : List Nlattr)
  /-- `NLMSG_NOOP` or `NLMSG_OVERRUN`: `mnl_cb_noop`, which returns `MNL_CB_OK`. -/
  | noop
  /-- `NLMSG_DONE`: `mnl_cb_stop`. -/
  | done
  /-- `NLMSG_ERROR` with this `errno` (`0` acknowledges, and stops), or a message
  `mnl_cb_run` refuses before dispatching it, setting `errno` the same way: one flagged
  `NLM_F_DUMP_INTR` (`EINTR`), or from the wrong port or sequence (`ESRCH`, `EPROTO`). -/
  | error (errno : Nat)

/-- `mnl_cb_run(buf, len, seq, portid, read_devices_cb, list)` over the messages of a batch
left, `ret` as the message before left it (`MNL_CB_OK` at first). -/
def cbRun (ret : Int) (s : EnumState) : List LinkMsg → Option (Int × EnumState)
  | [] => some (ret, s)
  | .link attrs :: msgs =>
    match readDevicesCb attrs s with
    | none => none
    | some (ret, s) => if ret ≤ MNL_CB_STOP then some (ret, s) else cbRun ret s msgs
  | .noop :: msgs => cbRun MNL_CB_OK s msgs
  | .done :: _ => some (MNL_CB_STOP, s)
  | .error errno :: _ => some (if errno = 0 then MNL_CB_STOP else MNL_CB_ERROR, { s with errno })

/-- What `kernel_get_wireguard_interfaces` meets on Linux: whether the `calloc` of its
buffer succeeds, the `errno` of the first of `mnl_socket_open`, `mnl_socket_bind` and
`mnl_socket_sendto` to fail (`none`: the request is sent), and what each
`mnl_socket_recvfrom` returns in turn: a batch of messages, or its `errno`. -/
structure RtnlDump where
  callocOk : Bool
  setupErrno : Option Nat
  batches : List (Except Nat (List LinkMsg))

/-- The `another:` loop over the batches left: `none` when they run out while the dump goes
on. -/
def recvLoop (s : EnumState) : List (Except Nat (List LinkMsg)) → Option (Int × EnumState)
  | [] => none
  | .error errno :: _ => some (-(errno : Int), { s with errno })
  | .ok msgs :: batches =>
    match cbRun MNL_CB_OK s msgs with
    | none => none
    | some (len, s) =>
      if len < 0 ∧ s.errno ≠ EINTR then some (-(s.errno : Int), s)
      else if len = MNL_CB_OK + 1 then recvLoop s batches
      else some (0, s)

/-- `kernel_get_wireguard_interfaces(list)` on Linux. -/
def kernelGetWireguardInterfaces (dump : RtnlDump) (s : EnumState) : Option (Int × EnumState) :=
  if !dump.callocOk then some (-(ENOMEM : Int), { s with errno := ENOMEM })
  else
    match dump.setupErrno with
    | some errno => some (-(errno : Int), { s with errno })
    | none => recvLoop s dump.batches

/-! ### What a link's attributes say -/

/-- The name of a link: the payload of its last `IFLA_IFNAME`. -/
def linkIfname (attrs : List Nlattr) : Option (List UInt8) :=
  (attrs.filter fun a => a.type == IFLA_IFNAME).getLast?.map Nlattr.payload

/-- Whether one of `kinds` is an `IFLA_INFO_KIND` naming `WG_GENL_NAME`. -/
def namesWireguard (kinds : List Nlattr) : Bool :=
  kinds.any fun k => k.type == IFLA_INFO_KIND && cstring k.payload == WG_GENL_NAME

/-- Whether a link is WireGuard's: the run of one of its `IFLA_LINKINFO`s names the kind. -/
def isWireguardLink (attrs : List Nlattr) : Bool :=
  attrs.any fun a => a.type == IFLA_LINKINFO && namesWireguard a.nested

/-- The name `read_devices_cb` adds for a link, if any. -/
def wireguardName (attrs : List Nlattr) : Option (List UInt8) :=
  if isWireguardLink attrs then linkIfname attrs else none

theorem attrParse_parseLinkinfo (kinds : List Nlattr) (interface : Interface) :
    attrParse parseLinkinfo kinds interface =
      some (MNL_CB_OK, { interface with
        isWireguard := interface.isWireguard || namesWireguard kinds }) := by
  induction kinds generalizing interface with
  | nil => simp [namesWireguard]
  | cons k kinds ih =>
    rw [attrParse_cons_of_ok kinds rfl (by decide), ih]
    by_cases hk : k.type = IFLA_INFO_KIND ∧ cstring k.payload = WG_GENL_NAME
    · simp [hk, namesWireguard]
    · have hk' : (k.type == IFLA_INFO_KIND && cstring k.payload == WG_GENL_NAME) = false := by
        simpa using hk
      simp [hk, hk', namesWireguard]

/-- **The attribute walk of `read_devices_cb`** ends with the link's last `IFLA_IFNAME`, if it
has one, and marks the link WireGuard's when one of its `IFLA_LINKINFO`s names the kind. -/
theorem parseInfomsg_walk (attrs : List Nlattr) (interface : Interface) :
    attrParse parseInfomsg attrs interface =
      some (MNL_CB_OK, ⟨(linkIfname attrs).or interface.name,
        interface.isWireguard || isWireguardLink attrs⟩) := by
  induction attrs generalizing interface with
  | nil => simp [linkIfname, isWireguardLink]
  | cons a attrs ih =>
    by_cases hinfo : a.type = IFLA_LINKINFO
    · rw [attrParse_cons_of_ok attrs (by rw [parseInfomsg, if_pos hinfo, attrParse_parseLinkinfo])
        (by decide), ih]
      simp [linkIfname, isWireguardLink, List.filter_cons, hinfo, IFLA_LINKINFO, IFLA_IFNAME,
        Bool.or_assoc]
    have hinfo' : (a.type == IFLA_LINKINFO) = false := beq_eq_false_iff_ne.2 hinfo
    by_cases hname : a.type = IFLA_IFNAME
    · rw [attrParse_cons_of_ok attrs (by rw [parseInfomsg, if_neg hinfo, if_pos hname])
        (by decide), ih]
      cases h : (attrs.filter fun a => a.type == IFLA_IFNAME).getLast? <;>
        simp [linkIfname, isWireguardLink, List.filter_cons, List.getLast?_cons, hname, h,
          show (IFLA_IFNAME == IFLA_LINKINFO) = false from rfl]
    · have hname' : (a.type == IFLA_IFNAME) = false := beq_eq_false_iff_ne.2 hname
      rw [attrParse_cons_of_ok attrs (by rw [parseInfomsg, if_neg hinfo, if_neg hname])
        (by decide), ih]
      simp [linkIfname, isWireguardLink, List.filter_cons, hinfo', hname']

/-- `read_devices_cb` adds the link's name when it is WireGuard's, and asks for more unless
that call fails. -/
theorem readDevicesCb_eq (attrs : List Nlattr) (s : EnumState) :
    readDevicesCb attrs s = (s.addAll (wireguardName attrs).toList).map fun
      | .error r => r
      | .ok s => (MNL_CB_OK + 1, s) := by
  simp only [readDevicesCb, parseInfomsg_walk, ne_eq, not_true_eq_false, if_false,
    Option.or_none, Bool.false_or, wireguardName]
  cases hw : isWireguardLink attrs
  · cases linkIfname attrs <;> rfl
  · cases linkIfname attrs with
    | none => rfl
    | some name =>
      simp only [if_true, Option.toList_some, EnumState.addAll, Option.bind_eq_bind]
      rcases s.add name with _ | ⟨ret, s'⟩
      · rfl
      · by_cases hret : ret < 0 <;> simp [hret]

/-! ### Reading the dump -/

/-- A batch as `cbRun` reads it, with the list left out: the links it hands
`read_devices_cb`, then what `mnl_cb_run` returns and the `errno` it sets, if any, when each
of those asks for more. -/
def batchLinks (ret : Int) : List LinkMsg → List (List Nlattr) × Int × Option Nat
  | [] => ([], ret, none)
  | .link attrs :: msgs => Prod.map (attrs :: ·) id (batchLinks (MNL_CB_OK + 1) msgs)
  | .noop :: msgs => batchLinks MNL_CB_OK msgs
  | .done :: _ => ([], MNL_CB_STOP, none)
  | .error errno :: _ => ([], if errno = 0 then MNL_CB_STOP else MNL_CB_ERROR, some errno)

/-- The links a dump reports before it ends, and the error it ends with (`none` when it ends
well or interrupted); `none` when the batches run out while it goes on. -/
def dumpLinks : List (Except Nat (List LinkMsg)) → Option (List (List Nlattr) × Option Nat)
  | [] => none
  | .error errno :: _ => some ([], some errno)
  | .ok msgs :: batches =>
    match batchLinks MNL_CB_OK msgs with
    | (links, len, errno) =>
      if len < 0 ∧ errno ≠ some EINTR then some (links, errno)
      else if len = MNL_CB_OK + 1 then
        (dumpLinks batches).map fun (more, error) => (links ++ more, error)
      else some (links, none)

/-- The names a Linux enumeration hands `string_list_add`, and its own error, once the dump
has ended; `none` when the batches run out first. -/
def kernelNames (dump : RtnlDump) : Option (List (List UInt8) × Option Nat) :=
  if !dump.callocOk then some ([], some ENOMEM)
  else
    match dump.setupErrno with
    | some errno => some ([], some errno)
    | none => (dumpLinks dump.batches).map fun (links, error) => (links.filterMap wireguardName, error)

/-- `errno` as a batch leaves it. -/
def EnumState.setErrno (s : EnumState) : Option Nat → EnumState
  | some errno => { s with errno }
  | none => s

@[simp] theorem EnumState.setErrno_list (s : EnumState) (errno : Option Nat) :
    (s.setErrno errno).list = s.list := by
  cases errno <;> rfl

/-- A batch asks for more only with no `errno` set, and fails only with one. -/
theorem batchLinks_end {ret : Int} (hret : 0 ≤ ret) (msgs : List LinkMsg) :
    0 ≤ (batchLinks ret msgs).2.1 ∧ (batchLinks ret msgs).2.2 = none ∨
      (batchLinks ret msgs).2.1 ≤ MNL_CB_STOP ∧ (batchLinks ret msgs).2.2 ≠ none := by
  induction msgs generalizing ret with
  | nil => exact .inl ⟨hret, rfl⟩
  | cons msg msgs ih =>
    cases msg with
    | link attrs => exact ih (by decide)
    | noop => exact ih (by decide)
    | done => exact .inl ⟨le_refl 0, rfl⟩
    | error errno =>
      refine .inr ⟨?_, Option.some_ne_none _⟩
      show (if errno = 0 then MNL_CB_STOP else MNL_CB_ERROR) ≤ MNL_CB_STOP
      split_ifs <;> decide

/-- A failed call of an enumeration is a failed `realloc`. -/
theorem EnumState.addAll_error {s s' : EnumState} {strs : List (List UInt8)} {r : Int}
    (h : s.addAll strs = some (.error (r, s'))) : r = -(ENOMEM : Int) ∧ s'.errno = ENOMEM := by
  induction strs generalizing s with
  | nil => cases h
  | cons str strs ih =>
    simp only [EnumState.addAll, Option.bind_eq_bind, Option.bind_eq_some] at h
    obtain ⟨⟨ret, s₁⟩, hadd, h⟩ := h
    by_cases hret : ret < 0
    · simp only [if_pos hret, Option.pure_def, Option.some.injEq, Except.error.injEq,
        Prod.mk.injEq] at h
      obtain ⟨rfl, rfl⟩ := h
      simp only [EnumState.add, Option.map_eq_some', Prod.mk.injEq] at hadd
      obtain ⟨⟨r', l⟩, hsl, rfl, rfl⟩ := hadd
      exact ⟨(stringListAdd_ret hsl).resolve_left (by omega), if_pos hret⟩
    · rw [if_neg hret] at h
      exact ih h

/-- **One batch through `mnl_cb_run`**: the calls for the WireGuard links it reports, then
its own result, unless a call fails first. -/
theorem cbRun_eq (ret : Int) (s : EnumState) (msgs : List LinkMsg) :
    cbRun ret s msgs = (s.addAll ((batchLinks ret msgs).1.filterMap wireguardName)).map fun
      | .error r => r
      | .ok s => ((batchLinks ret msgs).2.1, s.setErrno (batchLinks ret msgs).2.2) := by
  induction msgs generalizing ret s with
  | nil => rfl
  | cons msg msgs ih =>
    cases msg with
    | link attrs =>
      simp only [cbRun, readDevicesCb_eq, batchLinks, Prod.map_fst, Prod.map_snd, id,
        List.filterMap_cons]
      cases wireguardName attrs with
      | none =>
        simp only [Option.toList_none, EnumState.addAll_nil, Option.map_some']
        rw [if_neg (by decide)]
        exact ih _ s
      | some name =>
        simp only [Option.toList_some, EnumState.addAll, Option.bind_eq_bind]
        rcases s.add name with _ | ⟨r, s'⟩
        · rfl
        · by_cases hr : r < 0
          · simp only [Option.some_bind, if_pos hr, Option.map_some', Option.pure_def]
            rw [if_pos (show r ≤ MNL_CB_STOP from le_of_lt hr)]
          · simp only [Option.some_bind, if_neg hr, Option.map_some', EnumState.addAll_nil]
            rw [if_neg (by decide)]
            exact ih _ s'
    | noop => exact ih _ s
    | done => rfl
    | error errno => rfl

theorem recvLoop_eq (s : EnumState) (batches : List (Except Nat (List LinkMsg)))
    {links : List (List Nlattr)} {error : Option Nat} (h : dumpLinks batches = some (links, error)) :
    (recvLoop s batches).map (fun r => (r.1, r.2.list)) =
      (s.addAll (links.filterMap wireguardName)).map fun r =>
        ((EnumState.finish error r).1, (EnumState.finish error r).2.list) := by
  induction batches generalizing s links error with
  | nil => cases h
  | cons batch batches ih =>
    rcases batch with errno | msgs
    · simp only [dumpLinks, Option.some.injEq, Prod.mk.injEq] at h
      obtain ⟨rfl, rfl⟩ := h
      rfl
    have hOK : MNL_CB_OK = 1 := rfl
    have hSTOP : MNL_CB_STOP = 0 := rfl
    rcases hb : batchLinks MNL_CB_OK msgs with ⟨links₁, len, errno⟩
    have hend := batchLinks_end (show (0 : Int) ≤ MNL_CB_OK by decide) msgs
    rw [hb] at hend
    dsimp only at hend
    have hfail : len < 0 → ∃ e, errno = some e := fun hneg =>
      Option.ne_none_iff_exists'.1 (hend.resolve_left fun h' => by omega).2
    simp only [dumpLinks, hb] at h
    simp only [recvLoop, cbRun_eq, hb]
    obtain ⟨more, rfl⟩ : ∃ more, links = links₁ ++ more := by
      split_ifs at h
      · exact ⟨[], by simp_all⟩
      · obtain ⟨⟨more, _⟩, -, heq⟩ := Option.map_eq_some'.1 h
        exact ⟨more, (Prod.mk.inj heq).1.symm⟩
      · exact ⟨[], by simp_all⟩
    rw [List.filterMap_append, EnumState.addAll_append]
    rcases hadd : s.addAll (links₁.filterMap wireguardName) with _ | ⟨r, s'⟩ | s'
    · rfl
    · -- a `string_list_add` failed: `errno` is `ENOMEM`, and the run returns its result
      obtain ⟨rfl, herrno⟩ := EnumState.addAll_error hadd
      simp only [Option.map_some', Option.some_bind, herrno]
      rw [if_pos (show -(ENOMEM : Int) < 0 ∧ ENOMEM ≠ EINTR by decide)]
      rfl
    simp only [Option.map_some', Option.some_bind]
    by_cases hA : len < 0 ∧ errno ≠ some EINTR
    · -- the batch ends the dump with its error
      rw [if_pos hA] at h
      obtain ⟨rfl, rfl⟩ : more = [] ∧ error = errno := by simp_all
      obtain ⟨e, rfl⟩ := hfail hA.1
      rw [if_pos]
      · rfl
      · exact ⟨hA.1, fun he => hA.2 (congrArg some he)⟩
    rw [if_neg hA] at h
    by_cases hB : len = MNL_CB_OK + 1
    · -- the batch asks for more
      rw [if_pos hB] at h
      obtain ⟨⟨more', error'⟩, hd, heq⟩ := Option.map_eq_some'.1 h
      obtain ⟨rfl, rfl⟩ : more' = more ∧ error' = error := by simpa using heq
      obtain rfl : errno = none := (hend.resolve_right fun h' => by omega).2
      rw [if_neg (fun h' => absurd h'.1 (by omega)), if_pos hB]
      exact ih s' hd
    · -- the dump is over
      rw [if_neg hB] at h
      obtain ⟨rfl, rfl⟩ : more = [] ∧ error = none := by simp_all
      rw [if_neg, if_neg hB]
      · simp only [Option.map_some', EnumState.setErrno_list]
        rfl
      · rintro ⟨hneg, hne⟩
        obtain ⟨e, rfl⟩ := hfail hneg
        exact hA ⟨hneg, fun he => hne (Option.some.inj he)⟩

/-- **The Linux enumeration is `enumerate`** over the names of the WireGuard links the dump
reports before it ends, with the error it ends with; a failed `calloc` or a failed call
before the dump is read is an error with no names. -/
theorem kernelGetWireguardInterfaces_eq (dump : RtnlDump) (s : EnumState)
    {names : List (List UInt8)} {error : Option Nat} (h : kernelNames dump = some (names, error)) :
    (kernelGetWireguardInterfaces dump s).map (fun r => (r.1, r.2.list)) =
      enumerate s.list (withReallocs names s.reallocs) error := by
  rw [enumerate_withReallocs]
  cases hc : dump.callocOk
  · simp only [kernelNames, hc, Bool.not_false, if_true, Option.some.injEq, Prod.mk.injEq] at h
    obtain ⟨rfl, rfl⟩ := h
    simp [kernelGetWireguardInterfaces, hc, EnumState.finish]
  cases hs : dump.setupErrno with
  | some errno =>
    simp only [kernelNames, hc, hs, Bool.not_true, Bool.false_eq_true, if_false,
      Option.some.injEq, Prod.mk.injEq] at h
    obtain ⟨rfl, rfl⟩ := h
    simp [kernelGetWireguardInterfaces, hc, hs, EnumState.finish]
  | none =>
    simp only [kernelNames, hc, hs, Bool.not_true, Bool.false_eq_true, if_false,
      Option.map_eq_some'] at h
    obtain ⟨⟨links, error'⟩, hd, heq⟩ := h
    obtain ⟨rfl, rfl⟩ := Prod.mk.inj heq
    simp only [kernelGetWireguardInterfaces, hc, hs, Bool.not_true, Bool.false_eq_true, if_false]
    exact recvLoop_eq s _ hd

/-! ### Dumps as the kernel sends them -/

/-- A run of links at the head of a batch is reported as it is. -/
theorem batchLinks_links_append (ret : Int) (links : List (List Nlattr)) (msgs : List LinkMsg) :
    batchLinks ret (links.map .link ++ msgs) =
      Prod.map (links ++ ·) id (batchLinks (if links.isEmpty then ret else MNL_CB_OK + 1) msgs) := by
  induction links generalizing ret with
  | nil => rfl
  | cons attrs links ih =>
    show batchLinks ret (.link attrs :: (links.map .link ++ msgs)) = _
    rw [batchLinks, ih, ite_self]
    rfl

/-- Batches of links, each asking for the next, hand their links on to what follows. -/
theorem dumpLinks_full (full : List (List (List Nlattr))) (hne : ∀ b ∈ full, b ≠ [])
    (batches : List (Except Nat (List LinkMsg))) :
    dumpLinks (full.map (fun b => .ok (b.map .link)) ++ batches) =
      (dumpLinks batches).map fun (more, error) => (full.flatten ++ more, error) := by
  induction full with
  | nil => simp
  | cons b full ih =>
    have hb := batchLinks_links_append MNL_CB_OK b []
    rw [List.append_nil, if_neg (by simpa using hne b (List.mem_cons_self b full))] at hb
    rw [List.map_cons, List.cons_append, dumpLinks, hb]
    simp only [batchLinks, Prod.map_apply, id, List.append_nil]
    rw [if_neg (show ¬(MNL_CB_OK + 1 < 0 ∧ (none : Option Nat) ≠ some EINTR) by decide), if_pos trivial,
      ih fun b' h' => hne b' (List.mem_cons_of_mem b h'), Option.map_map]
    simp [Function.comp_def]

/-- **A dump as the kernel sends it** (batches of links, each asking for the next, then links
and `NLMSG_DONE`) reports every link with no error.  Links then an error `e` report the links
before it, and end the dump with `e`, unless `e` is `EINTR` (an interrupted dump) or `0` (an
acknowledgement). -/
theorem dumpLinks_ends (full : List (List (List Nlattr))) (hne : ∀ b ∈ full, b ≠ [])
    (last : List (List Nlattr)) (rest : List LinkMsg) (batches : List (Except Nat (List LinkMsg)))
    (errno : Nat) :
    dumpLinks (full.map (fun b => .ok (b.map .link)) ++
        .ok (last.map .link ++ .done :: rest) :: batches) = some (full.flatten ++ last, none) ∧
    dumpLinks (full.map (fun b => .ok (b.map .link)) ++
        .ok (last.map .link ++ .error errno :: rest) :: batches) =
      some (full.flatten ++ last, if errno = 0 ∨ errno = EINTR then none else some errno) := by
  rw [dumpLinks_full full hne, dumpLinks_full full hne]
  simp only [dumpLinks, batchLinks_links_append, batchLinks, Prod.map, id, List.append_nil]
  constructor
  · rw [if_neg (fun h => absurd h.1 (by decide)), if_neg (by decide)]
    rfl
  · by_cases h0 : errno = 0
    · rw [if_pos h0, if_neg (fun h => absurd h.1 (by decide)), if_neg (by decide),
        if_pos (.inl h0)]
      rfl
    by_cases hi : errno = EINTR
    · rw [if_neg h0, if_neg (fun h => h.2 (by rw [hi])), if_neg (by decide), if_pos (.inr hi)]
      rfl
    · rw [if_neg h0, if_pos ⟨by decide, fun h => hi (Option.some.inj h)⟩,
        if_neg (fun h => h.elim h0 hi)]
      rfl

/-- **A dump as the kernel sends it, read by `kernel_get_wireguard_interfaces`.**  Batches of
links, each asking for the next, then links and `NLMSG_DONE`: the enumeration is the calls for
all its WireGuard links' names, with no error.  Links then an error `e`: the calls for the
WireGuard links before it, then `e`; an interrupted dump (`EINTR`) or an acknowledgement
(`0`) keeps the links read and ends with no error. -/
theorem kernelGetWireguardInterfaces_dump (full : List (List (List Nlattr)))
    (hne : ∀ b ∈ full, b ≠ []) (last : List (List Nlattr)) (rest : List LinkMsg)
    (batches : List (Except Nat (List LinkMsg))) (errno : Nat) (s : EnumState) :
    (kernelGetWireguardInterfaces ⟨true, none, full.map (fun b => .ok (b.map .link)) ++
        .ok (last.map .link ++ .done :: rest) :: batches⟩ s).map (fun r => (r.1, r.2.list)) =
      enumerate s.list (withReallocs ((full.flatten ++ last).filterMap wireguardName) s.reallocs)
        none ∧
    (kernelGetWireguardInterfaces ⟨true, none, full.map (fun b => .ok (b.map .link)) ++
        .ok (last.map .link ++ .error errno :: rest) :: batches⟩ s).map (fun r => (r.1, r.2.list)) =
      enumerate s.list (withReallocs ((full.flatten ++ last).filterMap wireguardName) s.reallocs)
        (if errno = 0 ∨ errno = EINTR then none else some errno) := by
  obtain ⟨hdone, herror⟩ := dumpLinks_ends full hne last rest batches errno
  exact ⟨kernelGetWireguardInterfaces_eq _ s (by simp [kernelNames, hdone]),
    kernelGetWireguardInterfaces_eq _ s (by simp [kernelNames, herror])⟩

/-- One batch holding a link `wg0` of kind `wireguard`, then `NLMSG_DONE`, or an
interruption. -/
theorem kernelGetWireguardInterfaces_dump_wg0 :
    (∀ b ∈ [[[Nlattr.attr IFLA_IFNAME (cstr "wg0" ++ [0]),
        .nest IFLA_LINKINFO [.attr IFLA_INFO_KIND (WG_GENL_NAME ++ [0])]]]], b ≠ []) ∧
    (kernelGetWireguardInterfaces ⟨true, none, [.ok [.link [.attr IFLA_IFNAME (cstr "wg0" ++ [0]),
        .nest IFLA_LINKINFO [.attr IFLA_INFO_KIND (WG_GENL_NAME ++ [0])]]], .ok [.error EINTR]]⟩
        ⟨StringList.zero, [], 0⟩).map (fun r => (r.1, r.2.list)) =
      enumerate StringList.zero (withReallocs [cstr "wg0" ++ [0]] []) none := by
  have hne : ∀ b ∈ [[[Nlattr.attr IFLA_IFNAME (cstr "wg0" ++ [0]),
      .nest IFLA_LINKINFO [.attr IFLA_INFO_KIND (WG_GENL_NAME ++ [0])]]]], b ≠ [] := by simp
  refine ⟨hne, ?_⟩
  have h := (kernelGetWireguardInterfaces_dump _ hne [] [] [] EINTR ⟨StringList.zero, [], 0⟩).2
  rw [if_pos (.inr rfl)] at h
  exact h

/-! ### `ipc_list_devices` on Linux -/

/-- **`ipc_list_devices` on Linux lists the WireGuard links, then the userspace interfaces.**
For a dump that ends and any socket directory, each enumeration is `enumerate` over its
names: the last `IFLA_IFNAME` of each link the dump reports whose `IFLA_LINKINFO` names the
kind `wireguard`, in dump order, then the stems of the `<stem>.sock` entries whose sockets
answer.  While those fit in `size_t`, every buffer `ipc_list_devices` returns splits back into
exactly their C strings, empty ones left out, and it returns one whenever every `realloc` and
`strdup` succeeds and neither enumeration fails. -/
theorem ipcListDevices_lists_wireguard_links (dump : RtnlDump) (dir : SockDir)
    {names : List (List UInt8)} {error : Option Nat} (hdump : kernelNames dump = some (names, error))
    (kernelReallocs userspaceReallocs : List (Option (Nat → UInt8))) (strdupOk : Bool)
    (hfit : (encodeNames ((names ++ sockNames dir).flatMap addedName)).length + 1 ≤ SIZE_MAX) :
    (∀ s : EnumState, s.reallocs = kernelReallocs →
      (kernelGetWireguardInterfaces dump s).map (fun r => (r.1, r.2.list)) =
        enumerate s.list (withReallocs names kernelReallocs) error) ∧
    (∀ s : EnumState, s.reallocs = userspaceReallocs →
      (userspaceGetWireguardInterfaces dir s).map (fun r => (r.1, r.2.list)) =
        enumerate s.list (withReallocs (sockNames dir) userspaceReallocs) (sockError dir)) ∧
    ∃ r, ipcListDevices ⟨withReallocs names kernelReallocs, error⟩
        ⟨withReallocs (sockNames dir) userspaceReallocs, sockError dir⟩ strdupOk = some r ∧
      (∀ buffer, r = some buffer → splitNames buffer = (names ++ sockNames dir).flatMap addedName) ∧
      ((∀ x ∈ kernelReallocs ++ userspaceReallocs, x.isSome) → error = none →
        sockError dir = none → strdupOk → r.isSome) := by
  exact ⟨fun s hs => hs ▸ kernelGetWireguardInterfaces_eq dump s hdump,
    fun s hs => hs ▸ userspaceGetWireguardInterfaces_eq dir s,
    ipcListDevices_withReallocs _ _ _ _ _ _ strdupOk hfit⟩

/-- A dump of a WireGuard link `wg0` and another link, and no socket directory: the list is
`wg0` alone. -/
theorem ipcListDevices_lists_wireguard_links_wg0 :
    kernelNames ⟨true, none, [.ok [.link [.attr IFLA_IFNAME (cstr "wg0" ++ [0]),
        .nest IFLA_LINKINFO [.attr IFLA_INFO_KIND (WG_GENL_NAME ++ [0])]],
      .link [.attr IFLA_IFNAME (cstr "eth0" ++ [0])], .done]]⟩ = some ([cstr "wg0" ++ [0]], none) ∧
    ∃ buffer, ipcListDevices ⟨withReallocs [cstr "wg0" ++ [0]] [], none⟩
        ⟨withReallocs (sockNames ⟨some ENOENT, [], fun _ => ⟨.error ENOENT, none, none⟩⟩) [],
          sockError ⟨some ENOENT, [], fun _ => ⟨.error ENOENT, none, none⟩⟩⟩ true =
        some (some buffer) ∧ splitNames buffer = [cstr "wg0"] := by
  have hdump : kernelNames ⟨true, none, [.ok [.link [.attr IFLA_IFNAME (cstr "wg0" ++ [0]),
      .nest IFLA_LINKINFO [.attr IFLA_INFO_KIND (WG_GENL_NAME ++ [0])]],
      .link [.attr IFLA_IFNAME (cstr "eth0" ++ [0])], .done]]⟩ = some ([cstr "wg0" ++ [0]], none) := by
    decide
  obtain ⟨-, -, r, hr, hbuf, hsome⟩ := ipcListDevices_lists_wireguard_links _
    ⟨some ENOENT, [], fun _ => ⟨.error ENOENT, none, none⟩⟩ hdump [] [] true (by decide)
  obtain ⟨buffer, rfl⟩ := Option.isSome_iff_exists.1 (hsome (by simp) rfl (by decide) rfl)
  exact ⟨hdump, buffer, hr, (hbuf buffer rfl).trans (by decide)⟩

end WireguardIpc
