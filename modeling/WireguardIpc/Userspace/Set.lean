/-
`userspace_set_device`: the request a device is sent as to a userspace implementation,
and what the reply is taken to mean.

The request is one `key=value` line per setting, each ended by a newline, and a blank line
that ends it.  The device's keys come first, then each peer's, its allowed-ips last.  A
peer flagged for removal gets `remove=true` and nothing else; an endpoint is written only
for the two address families, and only when `getnameinfo` succeeds; an allowed-ip is
written only when `inet_ntop` succeeds.

The reply is read with `fscanf(f, "errno=%d\n\n", &ret)`, and `ret` is returned as it was
read: unlike `userspace_get_device`, which negates the number it reads, this returns the
reply's number with its own sign.
-/
import WireguardIpc.Userspace.Get

namespace WireguardIpc

/-! ### The request -/

/-- The `endpoint` line of a peer, if one is written: `getnameinfo` on the socket address,
the host bracketed when it is an IPv6 literal with a colon. -/
def endpointPair (ext : Extern) (e : Endpoint) : List (List UInt8 × List UInt8) :=
  if e.family = AF_INET ∨ e.family = AF_INET6 then
    let addrLen := if e.family = AF_INET then SOCKADDR_IN_LEN else SOCKADDR_IN6_LEN
    match ext.getnameinfo (e.data.take addrLen) with
    | some (host, service) =>
      if e.family = AF_INET6 ∧ colon ∈ host then
        [(cstr "endpoint", openBracket :: host ++ closeBracket :: colon :: service)]
      else [(cstr "endpoint", host ++ colon :: service)]
    | none => []
  else []

/-- The `allowed_ip` line of an allowed-ip, if one is written: `inet_ntop` of the address
of its family, a slash, and the prefix length with `%d`. -/
def allowedipPair (ext : Extern) (a : Wgallowedip) : Option (List UInt8 × List UInt8) :=
  let text :=
    if a.family.toNat = AF_INET then ext.inetNtop AF_INET (a.ip.data.take 4)
    else if a.family.toNat = AF_INET6 then ext.inetNtop AF_INET6 a.ip.data
    else none
  text.map fun ip => (cstr "allowed_ip", ip ++ slash :: decimal a.cidr.toNat)

/-- The lines written for one peer, as key and value. -/
def peerPairs (ext : Extern) (peer : Wgpeer) : List (List UInt8 × List UInt8) :=
  (cstr "public_key", ext.keyToHex peer.publicKey) ::
    if peer.flags.removeMe then [(cstr "remove", cstr "true")]
    else
      (if peer.flags.hasPresharedKey then [(cstr "preshared_key", ext.keyToHex peer.presharedKey)] else []) ++
      endpointPair ext peer.endpoint ++
      (if peer.flags.hasPersistentKeepaliveInterval then
        [(cstr "persistent_keepalive_interval", decimal peer.persistentKeepaliveInterval.toNat)] else []) ++
      (if peer.flags.replaceAllowedips then [(cstr "replace_allowed_ips", cstr "true")] else []) ++
      peer.allowedips.filterMap (allowedipPair ext)

/-- The lines of the request before its blank line, as key and value. -/
def setPairs (ext : Extern) (dev : Wgdevice) : List (List UInt8 × List UInt8) :=
  [(cstr "set", cstr "1")] ++
    (if dev.flags.hasPrivateKey then [(cstr "private_key", ext.keyToHex dev.privateKey)] else []) ++
    (if dev.flags.hasListenPort then [(cstr "listen_port", decimal dev.listenPort.toNat)] else []) ++
    (if dev.flags.hasFwmark then [(cstr "fwmark", decimal dev.fwmark.toNat)] else []) ++
    (if dev.flags.replacePeers then [(cstr "replace_peers", cstr "true")] else []) ++
    dev.peers.flatMap (peerPairs ext)

/-- `fprintf(f, "%s=%s\n", key, value)`. -/
def keyValueLine (kv : List UInt8 × List UInt8) : List UInt8 := kv.1 ++ equalsSign :: kv.2 ++ [newline]

/-- Lines written one after the other, then the blank line. -/
def request (pairs : List (List UInt8 × List UInt8)) : List UInt8 :=
  (pairs.map keyValueLine).flatten ++ [newline]

/-- A key and value that can be written as a line and split back: the key has no `=`, and
neither holds a NUL or a newline. -/
def Writable (kv : List UInt8 × List UInt8) : Prop := equalsSign ∉ kv.1 ∧ Inline kv.1 ∧ Inline kv.2

theorem parseLine_keyValueLine {kv : List UInt8 × List UInt8} (h : Writable kv) :
    parseLine (keyValueLine kv) = .pair kv.1 kv.2 :=
  parseLine_pair h.1 h.2.1 h.2.2

/-- **A request is read back as its lines, then the blank line.** -/
theorem getlines_request (pairs : List (List UInt8 × List UInt8)) (h : ∀ kv ∈ pairs, Writable kv) :
    getlines (request pairs) = pairs.map keyValueLine ++ [[newline]] := by
  have hnl : ∀ l ∈ pairs.map (fun kv => kv.1 ++ equalsSign :: kv.2), newline ∉ l := by
    simp only [List.mem_map]
    rintro _ ⟨kv, hkv, rfl⟩
    exact ((h kv hkv).2.1.append ((h kv hkv).2.2.cons (by decide))).2
  have := getlines_lines _ hnl [newline]
  simp only [List.map_map, Function.comp_def, List.append_assoc, List.cons_append] at this
  have hline : keyValueLine = fun kv => kv.1 ++ equalsSign :: (kv.2 ++ [newline]) :=
    funext fun kv => by simp [keyValueLine]
  rw [request, hline]
  exact this

/-! ### The reply -/

/-- `isspace`. -/
def isspace (b : UInt8) : Bool := b = 32 || (9 ≤ b.toNat && b.toNat ≤ 13)

/-- `LONG_MIN` on LP64, where `%d` saturates before storing into `int`. -/
def LONG_MIN : Int := -2 ^ 63
/-- `LONG_MAX` on LP64. -/
def LONG_MAX : Int := 2 ^ 63 - 1

/-- The sign `%d` takes if there is one: whether it is `-`, and the text after it. -/
def scanSign : List UInt8 → Bool × List UInt8
  | 45 :: t => (true, t)
  | 43 :: t => (false, t)
  | s => (false, s)

theorem scanSign_of_isdigit {b : UInt8} (hb : isdigit b) (t : List UInt8) :
    scanSign (b :: t) = (false, b :: t) := by
  have h45 : isdigit 45 = false := by decide
  have h43 : isdigit 43 = false := by decide
  unfold scanSign
  split <;> simp_all only [List.cons.injEq, Bool.false_eq_true]

/-- `fscanf(f, "errno=%d\n\n", &ret)`: the number it stores into `ret`, or `none` when it does
not return `1`.  `%d` skips white space, takes a sign and the digits after it, saturates as
`strtol` does, and stores the `long` into the `int` by truncation. -/
def scanErrno (reply : List UInt8) : Option Int :=
  if cstr "errno=" <+: reply then
    let (neg, s) := scanSign ((reply.drop 6).dropWhile isspace)
    let ds := s.takeWhile isdigit
    if ds = [] then none
    else
      let v : Int := if neg then -(digitsValue ds : Int) else digitsValue ds
      some (Int.bmod (max LONG_MIN (min v LONG_MAX)) (2 ^ 32))
  else none

/-- `userspace_set_device(dev)`, given whether `userspace_interface_file` fails (with its
`errno`), the reply, and `errno` after a failed `fscanf`: the return value and the bytes
written. -/
def userspaceSetDevice (ext : Extern) (dev : Wgdevice) (openErrno : Option Nat)
    (reply : List UInt8) (errno : Nat) : Int × List UInt8 :=
  match openErrno with
  | some e => (-(e : Int), [])
  | none =>
    let ret : Int :=
      match scanErrno reply with
      | some n => n
      | none => if errno ≠ 0 then -(errno : Int) else -(EPROTO : Int)
    (ret, request (setPairs ext dev))

/-! ### An `errno=` reply -/

theorem request_errno (n : Nat) :
    request [(cstr "errno", decimal n)] = cstr "errno=" ++ (decimal n ++ [newline, newline]) := by
  simp only [request, keyValueLine, List.map_cons, List.map_nil, List.flatten_cons, List.flatten_nil,
    List.append_nil, List.append_assoc, List.cons_append, List.singleton_append]
  rfl

/-- The reply `errno=n`, `n` written with `%u` and an `int`, scans as `n`. -/
theorem scanErrno_errno_line {n : Nat} (hn : n < 2 ^ 31) :
    scanErrno (request [(cstr "errno", decimal n)]) = some (n : Int) := by
  obtain ⟨b, l, hbl⟩ := List.exists_cons_of_ne_nil (decimal_ne_nil n)
  have hb : isdigit b := isdigit_decimal n b (hbl ▸ List.mem_cons_self b l)
  have hsp : isspace b = false := by
    simp only [isdigit, Bool.and_eq_true, decide_eq_true_eq] at hb
    simp only [isspace, Bool.or_eq_false_iff, Bool.and_eq_false_iff, decide_eq_false_iff_not]
    constructor
    · rintro rfl; exact absurd hb (by decide)
    · omega
  have hds : (b :: (l ++ [newline, newline])).takeWhile isdigit = decimal n := by
    rw [← List.cons_append, ← hbl, List.takeWhile_append_of_pos (isdigit_decimal n)]
    exact List.append_nil _
  rw [scanErrno, request_errno, if_pos (List.prefix_append _ _), List.drop_left' (by rfl), hbl,
    List.cons_append, List.dropWhile_cons_of_neg (by simp [hsp]), scanSign_of_isdigit hb]
  simp only [hds, decimal_ne_nil, ↓reduceIte, digitsValue_decimal, Bool.false_eq_true]
  congr 1
  simp only [LONG_MIN, LONG_MAX, Int.bmod]
  omega

/-- `userspace_set_device` returns the number of an `errno=n` reply as it is. -/
theorem userspaceSetDevice_errno (ext : Extern) (dev : Wgdevice) (errno : Nat) {n : Nat}
    (hn : n < 2 ^ 31) :
    (userspaceSetDevice ext dev none (request [(cstr "errno", decimal n)]) errno).1 = n := by
  simp only [userspaceSetDevice, scanErrno_errno_line hn]

end WireguardIpc
