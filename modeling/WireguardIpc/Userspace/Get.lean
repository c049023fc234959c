/-
`userspace_get_device`: the device a userspace implementation describes in its reply to
`get=1`.

The reply is read line by line.  A `key=value` line stores into the device (only before
the first peer), starts a new peer (`public_key`), stores into the current peer (only
once there is one), appends an allowed-ip to it, or sets `ret` (`errno`); any other key
is skipped.  A line the code cannot read ends the loop with `break`, and so does the end
of the reply; `ret` is then `-EPROTO`.  Only the blank line ends it with the `ret` an
`errno` line set, and only `ret == 0` hands the device back.

The `peer` and `allowedip` cursors are pointers into the chains; here they are the
indices of the nodes they point to.  A new node is linked after the node its cursor
points to (`linkAfter`), and a store through `peer` is a `List.modify` at its index.
The functions `ipc.c` calls without defining them are parameters (`Extern`).

What is proved here: the device comes back exactly when the result is `0`, and every other
result is negative except one, the `ENETUNREACH` the endpoint branch assigns without a
sign (`userspaceGetDevice_result`); and what `NUM` and the 8-bit `cidr` field make of
numbers out of range (`getLine_accepts_out_of_range`).
-/
import WireguardIpc.Userspace.Text

namespace WireguardIpc

/-! ### What the code calls without defining -/

/-- The first `struct addrinfo` `getaddrinfo` hands back. -/
structure Addrinfo where
  family : Nat
  addrlen : Nat
  /-- The bytes `ai_addr` points to. -/
  addr : List UInt8
deriving DecidableEq, Repr

/-- The functions of `encoding.c`, `curve25519.c` and libc the userspace backend calls, as
the results they give. -/
structure Extern where
  keyToHex : Key → List UInt8
  keyFromHex : List UInt8 → Option Key
  curve25519GeneratePublic : Key → Key
  /-- `inet_ntop(family, addr, ...)`: the text, `none` when it fails. -/
  inetNtop : Nat → List UInt8 → Option (List UInt8)
  /-- `inet_pton(family, text, dst)`: the bytes it stores at `dst`, `none` unless it
  returns `1`. -/
  inetPton : Nat → List UInt8 → Option (List UInt8)
  /-- `getnameinfo` with `NI_NUMERICHOST | NI_NUMERICSERV` on the first `addr_len` bytes of
  a socket address: the host and the service, `none` when it fails. -/
  getnameinfo : List UInt8 → Option (List UInt8 × List UInt8)
  /-- `getaddrinfo(host, service, ...)`: its first result, `none` when it fails. -/
  getaddrinfo : List UInt8 → List UInt8 → Option Addrinfo

/-! ### Cursors -/

/-- `if (cursor) cursor->next = new; else first = new;`: the chain cut after the node the
cursor points to, with `new` linked there. -/
def linkAfter {α : Type} (chain : List α) (cursor : Option Nat) (new : α) : List α :=
  match cursor with
  | none => [new]
  | some i => chain.take (i + 1) ++ [new]

/-- Where the cursor points once it is moved onto the node `linkAfter` linked. -/
def afterIndex (cursor : Option Nat) : Nat :=
  match cursor with
  | none => 0
  | some i => i + 1

/-- A cursor on the last node links at the end. -/
theorem linkAfter_lastIndex {α : Type} (chain : List α) (new : α) :
    linkAfter chain (lastIndex chain) new = chain ++ [new] := by
  cases chain <;> simp [linkAfter, List.take_of_length_le]

theorem afterIndex_lastIndex {α : Type} (chain : List α) :
    afterIndex (lastIndex chain) = chain.length := by
  cases chain <;> rfl

/-- A store into the last node of a chain. -/
theorem modify_concat {α : Type} (f : α → α) (l : List α) (a : α) :
    (l ++ [a]).modify f l.length = l ++ [f a] := by
  induction l <;> simp_all

/-! ### The state of the line loop -/

/-- The locals of `userspace_get_device` the line loop reads and writes. -/
structure GetState where
  device : Wgdevice
  /-- `peer`: the index in `device.peers` of the node it points to. -/
  peer : Option Nat
  /-- `allowedip`: the index in the current peer's chain of the node it points to. -/
  allowedip : Option Nat
  ret : Int
  sys : Sys

/-- `peer->... = ...`: a store into the peer at index `i`. -/
def GetState.modifyPeer (st : GetState) (i : Nat) (f : Wgpeer → Wgpeer) : GetState :=
  { st with device := { st.device with peers := st.device.peers.modify f i } }

/-- The keys the loop tests a line's key against, in the order it tests them. -/
inductive GetKey where
  | privateKey | listenPort | fwmark | publicKey | presharedKey | endpoint
  | persistentKeepaliveInterval | allowedIp | lastHandshakeTimeSec | lastHandshakeTimeNsec
  | rxBytes | txBytes | errno | other
deriving DecidableEq, Repr

/-- The `strcmp` tests of the loop: the key a line's key is. -/
def GetKey.ofBytes (key : List UInt8) : GetKey :=
  if key = cstr "private_key" then .privateKey
  else if key = cstr "listen_port" then .listenPort
  else if key = cstr "fwmark" then .fwmark
  else if key = cstr "public_key" then .publicKey
  else if key = cstr "preshared_key" then .presharedKey
  else if key = cstr "endpoint" then .endpoint
  else if key = cstr "persistent_keepalive_interval" then .persistentKeepaliveInterval
  else if key = cstr "allowed_ip" then .allowedIp
  else if key = cstr "last_handshake_time_sec" then .lastHandshakeTimeSec
  else if key = cstr "last_handshake_time_nsec" then .lastHandshakeTimeNsec
  else if key = cstr "rx_bytes" then .rxBytes
  else if key = cstr "tx_bytes" then .txBytes
  else if key = cstr "errno" then .errno
  else .other

/-! ### The stores of one line

Each store is the code's, shared with the specification's reading of a reply
(`Userspace/Fold.lean`), so that the two differ only in how they find the node they
store into.
-/

/-- The device-scoped lines: what `private_key`, `listen_port` and `fwmark` store into the
device, `none` where the value is rejected (`key_from_hex` fails, `NUM` `break`s). -/
def storeInDevice (ext : Extern) : GetKey → List UInt8 → Option (Wgdevice → Wgdevice)
  | .privateKey, value => (ext.keyFromHex value).map fun k d =>
    { d with privateKey := k, publicKey := ext.curve25519GeneratePublic k,
             flags := { d.flags with hasPrivateKey := true, hasPublicKey := true } }
  | .listenPort, value => (NUM 0xffff value).map fun n d =>
    { d with listenPort := UInt16.ofNat n, flags := { d.flags with hasListenPort := true } }
  | .fwmark, value => (NUM 0xffffffff value).map fun n d =>
    { d with fwmark := UInt32.ofNat n, flags := { d.flags with hasFwmark := true } }
  | _, _ => some id

/-- The peer-scoped lines that store into the current peer, `none` where the value is
rejected; `endpoint` and `allowed_ip`, which do more, apart. -/
def storeInPeer (ext : Extern) : GetKey → List UInt8 → Option (Wgpeer → Wgpeer)
  | .presharedKey, value => (ext.keyFromHex value).map fun k p =>
    { p with presharedKey := k,
             flags := { p.flags with hasPresharedKey := p.flags.hasPresharedKey || !k.isZero } }
  | .persistentKeepaliveInterval, value => (NUM 0xffff value).map fun n p =>
    { p with persistentKeepaliveInterval := UInt16.ofNat n,
             flags := { p.flags with hasPersistentKeepaliveInterval := true } }
  | .lastHandshakeTimeSec, value => (NUM 0x7fffffffffffffff value).map fun n p =>
    { p with lastHandshakeTime := { p.lastHandshakeTime with tvSec := UInt64.ofNat n } }
  | .lastHandshakeTimeNsec, value => (NUM 0x7fffffffffffffff value).map fun n p =>
    { p with lastHandshakeTime := { p.lastHandshakeTime with tvNsec := UInt64.ofNat n } }
  | .rxBytes, value => (NUM 0xffffffffffffffff value).map fun n p => { p with rxBytes := UInt64.ofNat n }
  | .txBytes, value => (NUM 0xffffffffffffffff value).map fun n p => { p with txBytes := UInt64.ofNat n }
  | _, _ => some id

/-- What `public_key` stores into the peer it has just linked. -/
def Wgpeer.withPublicKey (k : Key) (p : Wgpeer) : Wgpeer :=
  { p with publicKey := k, flags := { p.flags with hasPublicKey := true } }

/-- What an `endpoint` value comes to: the socket address bytes to copy into the peer's
endpoint, a `getaddrinfo` failure, or a value the code `break`s at. -/
inductive Resolved where
  | addr (bytes : List UInt8)
  | unreachable
  | invalid
deriving DecidableEq, Repr

/-- The `endpoint` branch up to its `memcpy`: the split into host and service, then
`getaddrinfo`, whose result is kept only for an IPv4 or IPv6 address of its own size. -/
def resolveEndpoint (ext : Extern) (value : List UInt8) : Resolved :=
  match endpointHostService value with
  | none => .invalid
  | some (host, service) =>
    match ext.getaddrinfo host service with
    | none => .unreachable
    | some ai =>
      if (ai.family = AF_INET ∧ ai.addrlen = SOCKADDR_IN_LEN) ∨
          (ai.family = AF_INET6 ∧ ai.addrlen = SOCKADDR_IN6_LEN) then
        .addr (ai.addr.take ai.addrlen)
      else .invalid

/-- The `allowed_ip` branch up to its `calloc`: the address text and the mask, `none` when
there is no `/` or the mask does not start with a digit. -/
def allowedipText (value : List UInt8) : Option (List UInt8 × List UInt8) :=
  match strsepSlash value with
  | (_, none) => none
  | (ip, some mask) => if isdigit (mask.headD 0) then some (ip, mask) else none

/-- The record an `allowed_ip` line fills in from a zeroed one: the family `inet_pton`
accepted the address for (`AF_UNSPEC` when it failed), and `strtoul` of the mask stored
into the 8-bit `cidr`; `none` where the code then `break`s. -/
def allowedipRecord (ext : Extern) (ip mask : List UInt8) : Option Wgallowedip :=
  let fill : Nat × Bytes 16 :=
    if colon ∈ ip then
      match ext.inetPton AF_INET6 ip with
      | some b => (AF_INET6, (Bytes.zero 16).copyIn b)
      | none => (AF_UNSPEC, Bytes.zero 16)
    else
      match ext.inetPton AF_INET ip with
      | some b => (AF_INET, (Bytes.zero 16).copyIn b)
      | none => (AF_UNSPEC, Bytes.zero 16)
  let (cidr, rest) := strtoul mask
  let a : Wgallowedip := ⟨UInt16.ofNat fill.1, fill.2, UInt8.ofNat cidr⟩
  if rest.headD 0 ≠ 0 ∨ a.family.toNat = AF_UNSPEC ∨ (a.family.toNat = AF_INET6 ∧ a.cidr.toNat > 128) ∨
      (a.family.toNat = AF_INET ∧ a.cidr.toNat > 32) then none
  else some a

/-! ### One line, and the loop -/

/-- Where a line leaves the loop. -/
inductive LineOutcome where
  /-- On to the next line. -/
  | next (st : GetState)
  /-- `break`: the loop ends and `ret` becomes `-EPROTO`. -/
  | brk
  /-- `goto err` with this `ret`. -/
  | exit (ret : Int)

/-- A store that `break`s when its value is rejected. -/
def LineOutcome.ofStore {α : Type} (f : Option α) (store : α → GetState) : LineOutcome :=
  match f with
  | none => .brk
  | some f => .next (store f)

/-- `x = calloc(1, sizeof(*x)); if (!x) { ret = -ENOMEM; goto err; }`, then the rest of
the branch with the allocation made. -/
def LineOutcome.calloc (sys : Sys) (k : Sys → LineOutcome) : LineOutcome :=
  let (ok, sys) := sys.calloc
  if !ok then .exit (-(ENOMEM : Int)) else k sys

/-- The body of the loop on a `key=value` line.  The keys are distinct, so the C chain of
`else if` tests comes to one match on the key and on whether there is a current peer:
the device-scoped keys only count while `peer` is `NULL`, the peer-scoped ones only once
it is not. -/
def getLine (ext : Extern) (st : GetState) (key value : List UInt8) : LineOutcome :=
  match GetKey.ofBytes key, st.peer with
  | .privateKey, none | .listenPort, none | .fwmark, none =>
    .ofStore (storeInDevice ext (GetKey.ofBytes key) value) fun f => { st with device := f st.device }
  | .publicKey, _ =>
    .calloc st.sys fun sys =>
      let linked := { st with device := { st.device with peers := linkAfter st.device.peers st.peer Wgpeer.zero },
                              peer := some (afterIndex st.peer), allowedip := none, sys := sys }
      .ofStore (ext.keyFromHex value) fun k => linked.modifyPeer (afterIndex st.peer) (Wgpeer.withPublicKey k)
  | .endpoint, some i =>
    match resolveEndpoint ext value with
    | .addr b => .next (st.modifyPeer i fun p => { p with endpoint := p.endpoint.copyIn b })
    | .unreachable => .exit ENETUNREACH
    | .invalid => .brk
  | .allowedIp, some i =>
    match allowedipText value with
    | none => .brk
    | some (ip, mask) =>
      .calloc st.sys fun sys =>
        -- the new record is linked before its fields are filled and checked; a failed check
        -- ends the loop and frees the device, so only a record that passes is ever read
        .ofStore (allowedipRecord ext ip mask) fun a =>
          { st.modifyPeer i (fun p => { p with allowedips := linkAfter p.allowedips st.allowedip a }) with
            allowedip := some (afterIndex st.allowedip), sys := sys }
  | .presharedKey, some i | .persistentKeepaliveInterval, some i | .lastHandshakeTimeSec, some i
  | .lastHandshakeTimeNsec, some i | .rxBytes, some i | .txBytes, some i =>
    .ofStore (storeInPeer ext (GetKey.ofBytes key) value) fun f => st.modifyPeer i f
  | .errno, _ => .ofStore (NUM 0x7fffffff value) fun n => { st with ret := -(n : Int) }
  | _, _ => .next st

/-- The `while (getline(...) > 0)` loop: `ret` at `err:`, and the state there. -/
def getLoop (ext : Extern) : List (List UInt8) → GetState → Int × GetState
  | [], st => (-(EPROTO : Int), st)
  | line :: lines, st =>
    match parseLine line with
    | .blank => (st.ret, st)
    | .bad => (-(EPROTO : Int), st)
    | .pair key value =>
      match getLine ext st key value with
      | .next st => getLoop ext lines st
      | .brk => (-(EPROTO : Int), st)
      | .exit r => (r, st)

/-- `userspace_get_device(out, iface)`, given the outcomes of its `calloc` calls, whether
`userspace_interface_file` fails (with its `errno`), and the reply: the return value and
`*out`. -/
def userspaceGetDevice (ext : Extern) (sys : Sys) (openErrno : Option Nat)
    (iface reply : List UInt8) : Int × Option Wgdevice :=
  let (ok, sys) := sys.calloc
  if !ok then (-(sys.errno : Int), none)
  else
    match openErrno with
    | some e => (-(e : Int), none)
    | none =>
      let st : GetState := ⟨{ Wgdevice.zero with name := IfName.ofCString iface }, none, none,
        -(EPROTO : Int), sys⟩
      let r := getLoop ext (getlines reply) st
      if r.1 ≠ 0 then (r.1, none) else (0, some r.2.device)

/-! ### What the result can be -/

theorem ofStore_ne_exit {α : Type} {f : Option α} {store : α → GetState} {r : Int} :
    LineOutcome.ofStore f store ≠ .exit r := by
  cases f <;> simp [LineOutcome.ofStore]

theorem ofStore_eq_next {α : Type} {f : Option α} {store : α → GetState} {st : GetState}
    (h : LineOutcome.ofStore f store = .next st) : ∃ a, f = some a ∧ store a = st := by
  cases f <;> simp_all [LineOutcome.ofStore]

/-- Every allocation succeeds once the outcomes are used up. -/
theorem calloc_of_allocs_nil {sys : Sys} (h : sys.allocs = []) (k : Sys → LineOutcome) :
    LineOutcome.calloc sys k = k sys := by
  obtain ⟨allocs, e⟩ := sys
  subst h
  rfl

theorem calloc_eq_exit {sys : Sys} {k : Sys → LineOutcome} {r : Int}
    (h : LineOutcome.calloc sys k = .exit r) : r = -(ENOMEM : Int) ∨ ∃ s, k s = .exit r := by
  unfold LineOutcome.calloc at h
  split at h
  split_ifs at h
  exacts [.inl (LineOutcome.exit.inj h).symm, .inr ⟨_, h⟩]

theorem calloc_eq_next {sys : Sys} {k : Sys → LineOutcome} {st : GetState}
    (h : LineOutcome.calloc sys k = .next st) : ∃ s, k s = .next st := by
  unfold LineOutcome.calloc at h
  split at h
  split_ifs at h
  exact ⟨_, h⟩

/-- A line ends the loop early only for want of memory or on an unresolvable endpoint. -/
theorem getLine_exit {ext : Extern} {st : GetState} {key value : List UInt8} {r : Int}
    (h : getLine ext st key value = .exit r) : r = -(ENOMEM : Int) ∨ r = ENETUNREACH := by
  unfold getLine at h
  split at h <;> (try split at h) <;>
    first
    | exact absurd h ofStore_ne_exit
    | exact .inr (LineOutcome.exit.inj h).symm
    | cases h
    | (obtain h | ⟨_, h⟩ := calloc_eq_exit h
       exacts [.inl h, absurd h ofStore_ne_exit])

/-- Only an `errno` line changes `ret`, and it makes it `-n` for some `n`. -/
theorem getLine_next_ret {ext : Extern} {st st' : GetState} {key value : List UInt8}
    (h : getLine ext st key value = .next st') : st'.ret = st.ret ∨ ∃ n : Nat, st'.ret = -n := by
  unfold getLine at h
  split at h
  -- the `errno` line
  case h_13 => obtain ⟨n, -, rfl⟩ := ofStore_eq_next h; exact .inr ⟨n, rfl⟩
  all_goals (try split at h) <;>
    first
    | (obtain ⟨_, -, rfl⟩ := ofStore_eq_next h; exact .inl rfl)
    | (cases h; exact .inl rfl)
    | cases h
    | (obtain ⟨_, h⟩ := calloc_eq_next h
       obtain ⟨_, -, rfl⟩ := ofStore_eq_next h
       exact .inl rfl)

/-- The loop's `ret` is at most `0` along the way, so it ends at most `0` unless a line
assigned `ENETUNREACH`. -/
theorem getLoop_ret (ext : Extern) : ∀ (lines : List (List UInt8)) (st : GetState), st.ret ≤ 0 →
    (getLoop ext lines st).1 ≤ 0 ∨ (getLoop ext lines st).1 = ENETUNREACH
  | [], _, _ => .inl (by simp [getLoop])
  | line :: lines, st, hst => by
    unfold getLoop
    split
    · exact .inl hst
    · exact .inl (by simp)
    · split
      · rename_i st' hnext
        refine getLoop_ret ext lines st' ?_
        rcases getLine_next_ret hnext with h | ⟨n, h⟩ <;> omega
      · exact .inl (by simp)
      · rename_i r hr
        rcases getLine_exit hr with rfl | rfl
        · exact .inl (by simp)
        · exact .inr rfl

/-- What the end of `userspace_get_device` makes of a `ret` at `err:`. -/
theorem result_of_ret {ret : Int} (d : Wgdevice) (h : ret ≤ 0 ∨ ret = ENETUNREACH) :
    (∃ d', (if ret ≠ 0 then (ret, none) else (0, some d)) = (0, some d')) ∨
      ((if ret ≠ 0 then (ret, none) else (0, some d)).2 = none ∧
        ((if ret ≠ 0 then (ret, none) else (0, some d)).1 < 0 ∨
          (if ret ≠ 0 then (ret, none) else (0, some d)).1 = ENETUNREACH)) := by
  split_ifs with h0
  · exact .inr ⟨rfl, by omega⟩
  · exact .inl ⟨d, rfl⟩

/-- **The result of `userspace_get_device`**, for every reply and every outcome of the calls
it makes: `0` with the device, or no device and a negative result, or no device and
`ENETUNREACH`, positive, when an endpoint does not resolve.  (A failure to open the
socket is assumed to set `errno`.) -/
theorem userspaceGetDevice_result (ext : Extern) (sys : Sys) (openErrno : Option Nat)
    (iface reply : List UInt8) (hopen : openErrno ≠ some 0) :
    (∃ d, userspaceGetDevice ext sys openErrno iface reply = (0, some d)) ∨
      ((userspaceGetDevice ext sys openErrno iface reply).2 = none ∧
        ((userspaceGetDevice ext sys openErrno iface reply).1 < 0 ∨
          (userspaceGetDevice ext sys openErrno iface reply).1 = ENETUNREACH)) := by
  unfold userspaceGetDevice
  rcases hc : sys.calloc with ⟨_ | _, sys'⟩
  · simp [Sys.calloc_errno hc, ENOMEM]
  · rcases openErrno with _ | e
    · exact result_of_ret _ (getLoop_ret ext _ _ (by simp [EPROTO]))
    · have : e ≠ 0 := fun h => hopen (h ▸ rfl)
      simp; omega

/-! ### Numbers out of range

`NUM` tests its bound on what `strtoull` returns, and `strtoull` saturates: under the bound
`ULLONG_MAX` of `rx_bytes` and `tx_bytes` a digit string of any size passes, and is stored
as `ULLONG_MAX`.  For every lower bound `NUM` is exact (`NUM_eq_some_iff`).  The prefix
length of an allowed-ip is stored into the 8-bit `cidr` before it is tested, so a mask of
`288` passes as `32`.
-/

/-- **Out-of-range numbers are accepted.**  With a current peer, `rx_bytes=18446744073709551616`
(that is 2^64) stores 2^64 - 1, and an IPv4 `allowed_ip` with mask `288` stores the prefix
length 32. -/
theorem getLine_accepts_out_of_range (ext : Extern) (st : GetState) (i : Nat)
    (hi : st.peer = some i) (hsys : st.sys.allocs = []) (ip b : List UInt8) (hip : colon ∉ ip)
    (hslash : slash ∉ ip) (hpton : ext.inetPton AF_INET ip = some b) :
    getLine ext st (cstr "rx_bytes") (cstr "18446744073709551616") =
        .next (st.modifyPeer i fun p => { p with rxBytes := UInt64.ofNat ULLONG_MAX }) ∧
      getLine ext st (cstr "allowed_ip") (ip ++ cstr "/288") =
        .next { st.modifyPeer i (fun p => { p with allowedips := (linkAfter p.allowedips st.allowedip
          ⟨UInt16.ofNat AF_INET, (Bytes.zero 16).copyIn b, 32⟩) }) with allowedip := some (afterIndex st.allowedip) } := by
  have hsep : allowedipText (ip ++ cstr "/288") = some (ip, cstr "288") := by
    rw [show cstr "/288" = slash :: cstr "288" by decide, allowedipText, strsepSlash_append hslash]
    exact if_pos (by decide)
  have hrec : allowedipRecord ext ip (cstr "288") = some ⟨UInt16.ofNat AF_INET, (Bytes.zero 16).copyIn b, 32⟩ := by
    simp only [allowedipRecord, hip, if_false, hpton, strtoul, strtoull]
    rw [if_neg (by decide)]
    rfl
  constructor
  · simp only [getLine, show GetKey.ofBytes (cstr "rx_bytes") = .rxBytes by decide, hi, storeInPeer,
      show NUM 0xffffffffffffffff (cstr "18446744073709551616") = some ULLONG_MAX by decide]
    rfl
  · simp only [getLine, show GetKey.ofBytes (cstr "allowed_ip") = .allowedIp by decide, hi, hsep,
      LineOutcome.calloc, Sys.calloc, hsys, hrec]
    rfl

/-- A state with one peer and every allocation succeeding. -/
def onePeerState : GetState := ⟨{ Wgdevice.zero with peers := [Wgpeer.zero] }, some 0, none, 0, ⟨[], 0⟩⟩

/-- External functions of which only `inet_pton` succeeds, reading every text as `10.0.0.0`. -/
def ptonOnlyExtern : Extern :=
  ⟨fun _ => [], fun _ => none, id, fun _ _ => none, fun _ _ => some [10, 0, 0, 0], fun _ => none,
    fun _ _ => none⟩

theorem getLine_accepts_out_of_range_onePeer :
    (onePeerState.peer = some 0 ∧ onePeerState.sys.allocs = [] ∧ colon ∉ cstr "10.0.0.0" ∧
      slash ∉ cstr "10.0.0.0" ∧ ptonOnlyExtern.inetPton AF_INET (cstr "10.0.0.0") = some [10, 0, 0, 0]) ∧
    getLine ptonOnlyExtern onePeerState (cstr "rx_bytes") (cstr "18446744073709551616") =
        .next (onePeerState.modifyPeer 0 fun p => { p with rxBytes := UInt64.ofNat ULLONG_MAX }) ∧
      getLine ptonOnlyExtern onePeerState (cstr "allowed_ip") (cstr "10.0.0.0" ++ cstr "/288") =
        .next { onePeerState.modifyPeer 0 (fun p => { p with allowedips := (linkAfter p.allowedips
          onePeerState.allowedip ⟨UInt16.ofNat AF_INET, (Bytes.zero 16).copyIn [10, 0, 0, 0], 32⟩) }) with
          allowedip := some (afterIndex onePeerState.allowedip) } :=
  ⟨⟨rfl, rfl, by decide, by decide, rfl⟩,
    getLine_accepts_out_of_range ptonOnlyExtern onePeerState 0 rfl rfl _ _ (by decide) (by decide) rfl⟩

end WireguardIpc
