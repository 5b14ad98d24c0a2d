import Corouv.Http.Isolation
import Corouv.Fs.RemoveAll
import Corouv.Transport.WriteAlone
import Corouv.Sync.Mutex
import Corouv.Sync.QueueSound
import Corouv.TaskGroup.Draining
import Corouv.Http.ContinueAgreement
import Corouv.Sql.Parameters
import Corouv.Sql.Blocking
import Corouv.Sql.Placeholders
import Corouv.Sql.Overlap
import Corouv.Executor
import Corouv.Http.Origins
import Corouv.Net.SpuriousEnd
import Corouv.Http.Form
import Corouv.Multipart.RoundTrip
import Corouv.Web.Router
import Corouv.Transport.Session
import Corouv.Io.FileAccess
import Corouv.Http.Injection
import Corouv.Sql.Sqlite
import Corouv.Fs.Normalize
import Corouv.Sql.Codegen
import Corouv.Sql.Conninfo
import Corouv.Sql.ConnectionUrl
