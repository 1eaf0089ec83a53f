import Pgfe.Str.Transform
import Pgfe.Str.Split
import Pgfe.Data.Basic
import Pgfe.Data.Copy
import Pgfe.Data.Heap
import Pgfe.Data.Bytea
import Pgfe.ConnectionPool.Basic
import Pgfe.ConnectionPool.Invariant
import Pgfe.ConnectionPool.Safety
import Pgfe.ConnectionPool.Loss
