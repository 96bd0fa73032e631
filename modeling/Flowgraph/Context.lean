import Flowgraph.Catalog

/-! What a template is compiled against: the catalog, the user with their connections and answers, and the
    policies in force where the workflow sets none. -/

namespace Flowgraph

open Json Json.Record

/-- The user a workflow is compiled for. -/
structure UserInfo where
  id : Option String
  tenantId : Option String
  deriving DecidableEq, Repr

def UserInfo.codec : Codec UserInfo := Record.codec "UserInfo" <|
  UserInfo.mk
    <$> maybe "id" UserInfo.id .string
    <*> maybe "tenant_id" UserInfo.tenantId .string

/-- An account of the user with a provider. -/
structure Connection where
  provider : String
  extra : Object
  deriving DecidableEq

def Connection.codec : Codec Connection := Record.codec "Connection" <|
  Connection.mk
    <$> field "provider" Connection.provider .string
    <*> rest Connection.extra

/-- The user's connections by their ids, in the order in which they were listed. -/
abbrev Connections := Table Connection

def Connections.codec : Codec Connections := .table Connection.codec

structure Context where
  index : CatalogIndex
  user : Option UserInfo
  connections : Connections
  answers : Object
  defaults : Policies

namespace Context

def userId? (c : Context) : Option String := c.user.bind (·.id)

/-- The connection for a provider: the hinted one if it is with that provider, else the first that is. -/
def connection? (c : Context) (provider : String) (hint : Option String) : Option String :=
  let hinted := hint.bind fun id =>
    match Table.entry? c.connections id with
    | some conn => if conn.provider = provider then some id else none
    | none => none
  hinted <|> (c.connections.find? (·.2.provider = provider)).map (·.1)

end Context

end Flowgraph
