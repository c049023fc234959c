import WireguardIpc.Containers
import WireguardIpc.Netlink.Attr
import WireguardIpc.Netlink.Coalesce
import WireguardIpc.Netlink.Get
import WireguardIpc.Netlink.Set
import WireguardIpc.Netlink.RoundTrip
import WireguardIpc.Netlink.Links
import WireguardIpc.Userspace.Text
import WireguardIpc.Userspace.Get
import WireguardIpc.Userspace.Fold
import WireguardIpc.Userspace.Set
import WireguardIpc.Userspace.RoundTrip
import WireguardIpc.Userspace.Sockets
import WireguardIpc.StringList
import WireguardIpc.Openbsd.Flat
import WireguardIpc.Openbsd.Get
import WireguardIpc.Openbsd.Set
import WireguardIpc.Openbsd.RoundTrip
import WireguardIpc.Openbsd.Groups
import WireguardIpc.Ipc
