import OpentelemetryExt.Cpp
import OpentelemetryExt.Lib.Heap

open heap

namespace opentelemetry

inductive AnyValue where
  | string (value : Bytes)
  | int (value : Int)
  | double (bits : UInt64)
  | bool (value : Bool)
deriving DecidableEq, Repr

structure KeyValue where
  key : Bytes
  value : AnyValue
deriving DecidableEq, Repr

def string_attribute (key : String) (value : Bytes) : KeyValue := ⟨lit key, .string value⟩

def int64_attribute (key : String) (value : Int) : KeyValue := ⟨lit key, .int value⟩

def double_attribute (key : String) (bits : UInt64) : KeyValue := ⟨lit key, .double bits⟩

def bool_attribute (key : String) (value : Bool) : KeyValue := ⟨lit key, .bool value⟩

/-- `Status_StatusCode`. -/
inductive StatusCode where
  | unset
  | ok
  | error
deriving DecidableEq, Repr

structure Status where
  code : StatusCode := .unset
  message : Bytes := []
deriving DecidableEq, Repr

structure SpanEvent where
  name : Bytes
  time_unix_nano : UInt64
  attributes : List KeyValue
deriving DecidableEq, Repr

/-- The span kinds the extension names. An SDK call may pass any other number. -/
abbrev SpanKind := Int

def SpanKind.unspecified : SpanKind := 0
def SpanKind.internal : SpanKind := 1
def SpanKind.server : SpanKind := 2
def SpanKind.client : SpanKind := 3

structure Span where
  trace_id : Bytes
  span_id : Bytes
  parent_span_id : Bytes := []
  name : Bytes
  kind : SpanKind
  start_time_unix_nano : UInt64
  end_time_unix_nano : UInt64 := 0
  attributes : List KeyValue := []
  events : List SpanEvent := []
  status : Status := {}
deriving DecidableEq, Repr

structure Resource where
  attributes : List KeyValue
deriving DecidableEq, Repr

/-- `ResourceSpans`. Each of its `InstrumentationLibrarySpans` holds one span, so the list
of the spans stands for both levels. -/
structure ResourceSpans where
  resource : Option Nat := none
  spans : List Nat := []
deriving DecidableEq, Repr

structure ExportTraceServiceRequest where
  resource_spans : List Nat
deriving DecidableEq, Repr

/-- The protobuf objects the extension has allocated. -/
structure Memory where
  spans : Heap Span := .empty
  resource_spans : Heap ResourceSpans := .empty
  resources : Heap Resource := .empty
  requests : Heap ExportTraceServiceRequest := .empty

namespace Memory

/-- The message objects that a request owns. -/
def owned (m : Memory) (request : ExportTraceServiceRequest) : List ResourceSpans :=
  request.resource_spans.filterMap m.resource_spans.cell

/-- `request->Clear(); delete request;`: everything the request owns goes with it. -/
def deleteRequest (m : Memory) (p : Nat) (request : ExportTraceServiceRequest) : Memory where
  spans := m.spans.free ((m.owned request).flatMap fun rs => rs.spans)
  resource_spans := m.resource_spans.free request.resource_spans
  resources := m.resources.free ((m.owned request).filterMap fun rs => rs.resource)
  requests := m.requests.free [p]

/-- What serialising a request puts on the wire: per resource, its attributes and the spans. -/
def serialize (m : Memory) (request : ExportTraceServiceRequest) :
    List (Option Resource × List Span) :=
  (m.owned request).map fun rs =>
    (rs.resource.bind m.resources.cell, rs.spans.filterMap m.spans.cell)

end Memory

end opentelemetry
