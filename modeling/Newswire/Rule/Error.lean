import Newswire.Json.Printer

/-!
# What can be wrong with rules

`RuleError` lists the causes for which saving, deleting, evaluating, compiling or running a rule
fails.  The wording of each is in `RuleError.message`, its short name in `RuleError.code`.
-/

namespace Newswire

/-- Something that uses a rule. -/
inductive Referent where
  /-- A rule that names it as a parent. -/
  | rule (id : String)
  /-- A product that filters by it. -/
  | product (id : String)
  /-- A route that applies by it. -/
  | route (id : String)
  deriving DecidableEq, Repr

namespace Referent

/-- The word for the kind of a referent. -/
def kind : Referent → String
  | rule _ => "content_filter"
  | product _ => "product"
  | route _ => "routing_rule"

/-- The identifier of a referent. -/
def id : Referent → String
  | rule id | product id | route id => id

/-- A referent in a message. -/
def text (r : Referent) : String := r.kind ++ ":" ++ r.id

end Referent

/-- What is wrong with a condition by itself. -/
inductive ConditionFlaw where
  /-- It has no identifier. -/
  | missingId
  /-- Its field is blank. -/
  | blankField
  /-- Its list has no entries. -/
  | noEntries
  /-- It has no value. -/
  | missingValue
  deriving DecidableEq, Repr

/-- The wording of a flaw. -/
def ConditionFlaw.message : ConditionFlaw → String
  | missingId => "条件 ID 不能为空"
  | blankField => "字段不能为空"
  | noEntries => "值列表不能为空"
  | missingValue => "值不能为空"

/-- The two kinds of queries that rules are compiled to. -/
inductive QueryKind where
  /-- Queries of a document store. -/
  | store
  /-- Queries of a search index. -/
  | search
  deriving DecidableEq, Repr

/-- The word for a kind of query. -/
def QueryKind.name : QueryKind → String
  | store => "store"
  | search => "search"

/-- Things that are looked up by identifier besides rules and conditions. -/
inductive Entity where
  /-- Products. -/
  | product
  /-- Subscribers. -/
  | subscriber
  /-- Routes. -/
  | route
  deriving DecidableEq, Repr

/-- The word for a kind of thing. -/
def Entity.name : Entity → String
  | product => "product"
  | subscriber => "subscriber"
  | route => "routing rule"

/-- Why a query cannot be run. -/
inductive QueryFault where
  /-- A store query that is no object. -/
  | notAnObject (query : Json)
  /-- A search query, or a part of one, that is not an object with one member. -/
  | notOneMember (query : Json)
  /-- The operand of this operator has to be an array. -/
  | needsArray (op : String)
  /-- The operand of this operator has to be a text. -/
  | needsText (op : String)
  /-- The operand of this operator has to be a text or an array. -/
  | needsTextOrArray (op : String)
  /-- The operand of this operator has to be an object. -/
  | needsObject (op : String)
  /-- The operand of this operator lacks a member. -/
  | needsMember (op key : String)
  /-- A comparison without a value. -/
  | missingValue
  /-- An unknown operator around clauses. -/
  | clauseOperator (op : String)
  /-- An unknown operator on a field. -/
  | fieldOperator (op : String)
  /-- An unknown kind of search query. -/
  | searchKind (kind : String)
  /-- A text that is no pattern. -/
  | badPattern (pattern : String)

/-- The wording of a query fault. -/
def QueryFault.message : QueryFault → String
  | notAnObject query => "查询必须是对象: " ++ query.compact
  | notOneMember query => "查询必须是单键对象: " ++ query.compact
  | needsArray op => op ++ " 需要数组"
  | needsText op => op ++ " 需要字符串"
  | needsTextOrArray op => op ++ " 需要字符串或数组"
  | needsObject op => op ++ " 需要对象"
  | needsMember op key => op ++ " 需要 " ++ key
  | missingValue => "缺少 value"
  | clauseOperator op => "顶层操作符 " ++ op
  | fieldOperator op => "字段操作符 " ++ op
  | searchKind kind => "查询类型 " ++ kind
  | badPattern pattern => "无效的正则 '" ++ pattern ++ "'"

/-- The causes for which an operation on rules fails. -/
inductive RuleError where
  /-- There is no such operator. -/
  | unknownOperator (raw : String)
  /-- A rule has no clauses. -/
  | emptyRule (id : String)
  /-- A clause of a rule demands nothing. -/
  | emptyClause (id : String) (index : Nat)
  /-- A condition is wrong by itself. -/
  | invalidCondition (id : String) (flaw : ConditionFlaw)
  /-- Rules name one another in a circle. -/
  | cycle (path : List String)
  /-- A condition compares a numeric field with an entry that is no number. -/
  | inexpressible (id : String) (target : QueryKind) (field entry : String)
  /-- There is no such condition. -/
  | conditionNotFound (id : String)
  /-- There is no such rule. -/
  | ruleNotFound (id : String)
  /-- There is no such thing of another kind. -/
  | notFound (entity : Entity) (id : String)
  /-- Something cannot be deleted because it is used. -/
  | stillReferenced (id : String) (referents : List Referent)
  /-- A query cannot be run. -/
  | unsupportedQuery (fault : QueryFault)

/-- The areas that errors belong to. -/
inductive ErrorArea where
  /-- The rules themselves. -/
  | configuration
  /-- Deletion of what is used. -/
  | referentialIntegrity
  /-- Running of queries. -/
  | backend
  deriving DecidableEq, Repr

/-- The word for an area. -/
def ErrorArea.name : ErrorArea → String
  | configuration => "configuration"
  | referentialIntegrity => "referential_integrity"
  | backend => "backend"

namespace RuleError

/-- The short name of a cause. -/
def code : RuleError → String
  | unknownOperator _ => "UNKNOWN_OPERATOR"
  | emptyRule _ => "EMPTY_FILTER"
  | emptyClause .. => "EMPTY_EXPRESSION"
  | invalidCondition .. => "INVALID_CONDITION"
  | cycle _ => "CYCLE_DETECTED"
  | inexpressible .. => "INEXPRESSIBLE_CONDITION"
  | conditionNotFound _ => "CONDITION_NOT_FOUND"
  | ruleNotFound _ => "FILTER_NOT_FOUND"
  | notFound .. => "NOT_FOUND"
  | stillReferenced .. => "REFERENTIAL_INTEGRITY"
  | unsupportedQuery _ => "UNSUPPORTED_QUERY"

/-- The area of a cause. -/
def area : RuleError → ErrorArea
  | stillReferenced .. => .referentialIntegrity
  | unsupportedQuery _ => .backend
  | _ => .configuration

/-- What keeps something from being deleted. -/
def referents : RuleError → List Referent
  | stillReferenced _ referents => referents
  | _ => []

/-- The wording of a cause. -/
def message : RuleError → String
  | unknownOperator raw => "无效的操作符: " ++ raw
  | emptyRule id => "内容过滤器 '" ++ id ++ "' 至少需要一个表达式"
  | emptyClause id index =>
    "内容过滤器 '" ++ id ++ "' 的第 " ++ Text.ofNat index ++ " 个表达式为空"
  | invalidCondition id flaw => "过滤条件 '" ++ id ++ "' 无效: " ++ flaw.message
  | cycle path => "检测到循环引用: " ++ " -> ".intercalate path
  | inexpressible id target field entry =>
    "过滤条件 '" ++ id ++ "' 无法编译为 " ++ target.name ++ " 查询: 数值字段 '" ++ field ++
      "' 的值 '" ++ entry ++ "' 不是数字"
  | conditionNotFound id => "过滤条件未找到: " ++ id
  | ruleNotFound id => "内容过滤器未找到: " ++ id
  | notFound entity id => entity.name ++ " 未找到: " ++ id
  | stillReferenced id referents =>
    "'" ++ id ++ "' 仍被引用，无法删除: " ++ ", ".intercalate (referents.map Referent.text)
  | unsupportedQuery fault => "不支持的查询: " ++ fault.message

end RuleError

end Newswire
