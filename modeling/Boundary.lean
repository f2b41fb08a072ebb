import Boundary.Go.Strings
import Boundary.Globals
import Boundary.Types.Action
import Boundary.Types.Resource
import Boundary.Perms.OutputFields
import Boundary.Perms.Grant
import Boundary.Perms.Acl
import Boundary.Perms.AclIndex
import Boundary.Perms.AclLoop
import Boundary.Perms.AclSpec
import Boundary.Perms.AclDeclarative
import Boundary.Errors
import Boundary.Go.Maps
import Boundary.Go.Control
import Boundary.Auth.Verify
import Boundary.Auth.ListScopes
import Boundary.ListToken.Token
import Boundary.Pagination.List
import Boundary.Pagination.InitialPhase
import Boundary.Pagination.Run
import Boundary.Pagination.Fill
import Boundary.Pagination.Plugin
import Boundary.Auth.RequestToken
import Boundary.Wire.Binary
import Boundary.Wire.Proto
import Boundary.Oplog.AnyOperation
import Boundary.Oplog.Queue
import Boundary.Oplog.Entry
import Boundary.Bsr.Chunk
import Boundary.Bsr.Encode
import Boundary.Bsr.Decode
import Boundary.Bsr.RoundTrip
import Boundary.Bsr.Pool
import Boundary.Host.Plugin
import Boundary.Worker.Session
import Boundary.Go.Json
import Boundary.Perms.Parse
import Boundary.Perms.GrantRoundTrip
import Boundary.Types.Registrar
import Boundary.RateLimit.Config
import Boundary.RateLimit.Limits
import Boundary.RateLimit.Handler
import Boundary.Scheduler.Batch
import Boundary.Bsr.Checksum
import Boundary.Bsr.Asciicast
import Boundary.Perms.ListPermissions
import Boundary.Perms.ParseIds
import Boundary.Sql.AnyArray
import Boundary.Target.List
import Boundary.Perms.ResolvableAliases
import Boundary.Target.Aliases
