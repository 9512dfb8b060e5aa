import FreeipaProv.Lib.Dict
import FreeipaProv.Lib.Fallible
import FreeipaProv.Lib.Reconcile
import FreeipaProv.Lib.Accumulate
import FreeipaProv.Lib.SymbolCode
import FreeipaProv.Lib.Framing
import FreeipaProv.Value
import FreeipaProv.Schema
import FreeipaProv.Changes
import FreeipaProv.Clients
import FreeipaProv.Find
import FreeipaProv.Run
import FreeipaProv.Canonical
import FreeipaProv.ApiForm
import FreeipaProv.DiffAlgebra
import FreeipaProv.QueueShape
import FreeipaProv.Diffs
import FreeipaProv.AddOrMod
import FreeipaProv.Removal
import FreeipaProv.Decode
import FreeipaProv.QueueEncodes
import FreeipaProv.CheckMode
import FreeipaProv.Frame
import FreeipaProv.Enable
import FreeipaProv.Revocation
import FreeipaProv.DeclaredKeys
import FreeipaProv.Wants
import FreeipaProv.CanonicalForm
import FreeipaProv.Edits
import FreeipaProv.Server
import FreeipaProv.Converge
import FreeipaProv.CaGuard
import FreeipaProv.CertRequest
import FreeipaProv.CertPrincipal
import FreeipaProv.ListServer
import FreeipaProv.ListOptions
import FreeipaProv.Principals
import FreeipaProv.Reading
import FreeipaProv.Aliases
import FreeipaProv.Concurrent
import FreeipaProv.SystemdEscape
import FreeipaProv.Pem
import FreeipaProv.Session
import FreeipaProv.Parted
import FreeipaProv.Partitioning
import FreeipaProv.Lib.Dialogue
import FreeipaProv.Exchange
import FreeipaProv.Wire
import FreeipaProv.Retry
import FreeipaProv.DockerNetwork
import FreeipaProv.DockerHost
import FreeipaProv.DockerRuns
import FreeipaProv.Lib.Fields
import FreeipaProv.PartedOutput
import FreeipaProv.PartedFormat
import FreeipaProv.PartedVersion
import FreeipaProv.PartedShell
import FreeipaProv.PartedRuns
import FreeipaProv.Lib.Derived
import FreeipaProv.Openssl
import FreeipaProv.OpensslRuns
import FreeipaProv.Lib.Targets
import FreeipaProv.Playbook
import FreeipaProv.Names
