import Flowgraph.Json.Codec

/-! Policies: how an action is retried, how long it may take and how often it may run. Each level of a
    workflow may set some of them and leave the others to the next level. -/

namespace Flowgraph

open Json Json.Record

/-- How often and how patiently an action is tried again. -/
structure RetryPolicy where
  maxAttempts : UInt32
  backoffMultiplier : Double
  initialDelayMs : UInt64
  deriving DecidableEq, Repr

/-- The retry policy in force where nothing sets one, and the source of the parts that one leaves out. -/
def RetryPolicy.builtin : RetryPolicy := ⟨3, Double.ofInt 2, 1000⟩

def RetryPolicy.codec : Codec RetryPolicy := Record.codec "RetryPolicy" <|
  RetryPolicy.mk
    <$> defaulted "max_attempts" RetryPolicy.maxAttempts .lenientUInt32
      RetryPolicy.builtin.maxAttempts
    <*> defaulted "backoff_multiplier" RetryPolicy.backoffMultiplier .lenientDouble
      RetryPolicy.builtin.backoffMultiplier
    <*> defaulted "initial_delay_ms" RetryPolicy.initialDelayMs .lenientUInt64
      RetryPolicy.builtin.initialDelayMs

/-- How often an action may run. -/
structure RateLimit where
  requestsPerMinute : UInt32
  deriving DecidableEq, Repr

/-- The rate limit in force where nothing sets one. -/
def RateLimit.builtin : RateLimit := ⟨60⟩

def RateLimit.codec : Codec RateLimit := Record.codec "RateLimit" <|
  RateLimit.mk
    <$> defaulted "requests_per_minute" RateLimit.requestsPerMinute .lenientUInt32
      RateLimit.builtin.requestsPerMinute

/-- The time an action may take where nothing sets one, in milliseconds. -/
def builtinTimeoutMs : UInt64 := 30000

/-- The policies that one level sets. -/
structure Policies where
  retry : Option RetryPolicy
  timeoutMs : Option UInt64
  rateLimit : Option RateLimit
  maxParallelism : Option UInt32
  deriving DecidableEq, Repr

namespace Policies

/-- A level that sets nothing. -/
def none : Policies := ⟨.none, .none, .none, .none⟩

def codec : Codec Policies := Record.codec "Policies" <|
  Policies.mk
    <$> maybe "retry" Policies.retry RetryPolicy.codec
    <*> maybe "timeout_ms" Policies.timeoutMs .lenientUInt64
    <*> maybe "rate_limit" Policies.rateLimit RateLimit.codec
    <*> maybe "max_parallelism" Policies.maxParallelism .lenientUInt32

/-- Takes what the level leaves open from the next one. -/
def fillFrom (p next : Policies) : Policies where
  retry := p.retry <|> next.retry
  timeoutMs := p.timeoutMs <|> next.timeoutMs
  rateLimit := p.rateLimit <|> next.rateLimit
  maxParallelism := p.maxParallelism <|> next.maxParallelism

end Policies

end Flowgraph
