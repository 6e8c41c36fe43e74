import GuestXml.Schema.Record

/-!
# Members of filters

The members of network filters and their rules.
-/

namespace GuestXml

def FilterParameter.record : Schema.Record FilterParameter where
  members := [
    ⟨"name", .attr "name" .string⟩,
    ⟨"value", .attr "value" .string⟩]
  toTuple a := (a.name, a.value, ())
  ofTuple := fun (name, value, ()) =>
    { name, value }
  ofTuple_toTuple _ := rfl
  toTuple_ofTuple _ := rfl

def FilterReference.record : Schema.Record FilterReference where
  members := [
    ⟨"filter", .attr "filter" .string⟩,
    ⟨"parameters", .elements "parameter" 0 (.group .filterParameter)⟩]
  toTuple a := (a.filter, a.parameters, ())
  ofTuple := fun (filter, parameters, ()) =>
    { filter, parameters }
  ofTuple_toTuple _ := rfl
  toTuple_ofTuple _ := rfl

def MacMatch.record : Schema.Record MacMatch where
  members := [
    ⟨"srcmacaddr", .optionalAttr "srcmacaddr" .string⟩,
    ⟨"dstmacaddr", .optionalAttr "dstmacaddr" .string⟩,
    ⟨"protocolid", .optionalAttr "protocolid" .string⟩]
  toTuple a := (a.srcmacaddr, a.dstmacaddr, a.protocolid, ())
  ofTuple := fun (srcmacaddr, dstmacaddr, protocolid, ()) =>
    { srcmacaddr, dstmacaddr, protocolid }
  ofTuple_toTuple _ := rfl
  toTuple_ofTuple _ := rfl

def ArpMatch.record : Schema.Record ArpMatch where
  members := [
    ⟨"srcmacaddr", .optionalAttr "srcmacaddr" .string⟩,
    ⟨"opcode", .optionalAttr "opcode" .string⟩,
    ⟨"arpsrcmacaddr", .optionalAttr "arpsrcmacaddr" .string⟩,
    ⟨"arpsrcipaddr", .optionalAttr "arpsrcipaddr" .string⟩]
  toTuple a := (a.srcmacaddr, a.opcode, a.arpsrcmacaddr, a.arpsrcipaddr, ())
  ofTuple := fun (srcmacaddr, opcode, arpsrcmacaddr, arpsrcipaddr, ()) =>
    { srcmacaddr, opcode, arpsrcmacaddr, arpsrcipaddr }
  ofTuple_toTuple _ := rfl
  toTuple_ofTuple _ := rfl

def IpMatch.record : Schema.Record IpMatch where
  members := [
    ⟨"srcipaddr", .optionalAttr "srcipaddr" .string⟩,
    ⟨"dstipaddr", .optionalAttr "dstipaddr" .string⟩,
    ⟨"protocol", .optionalAttr "protocol" .string⟩,
    ⟨"srcportstart", .optionalAttr "srcportstart" .unsignedShort⟩,
    ⟨"dstportstart", .optionalAttr "dstportstart" .unsignedShort⟩]
  toTuple a := (a.srcipaddr, a.dstipaddr, a.protocol, a.srcportstart, a.dstportstart, ())
  ofTuple := fun (srcipaddr, dstipaddr, protocol, srcportstart, dstportstart, ()) =>
    { srcipaddr, dstipaddr, protocol, srcportstart, dstportstart }
  ofTuple_toTuple _ := rfl
  toTuple_ofTuple _ := rfl

def PortMatch.record : Schema.Record PortMatch where
  members := [
    ⟨"srcipaddr", .optionalAttr "srcipaddr" .string⟩,
    ⟨"dstipaddr", .optionalAttr "dstipaddr" .string⟩,
    ⟨"srcportstart", .optionalAttr "srcportstart" .unsignedShort⟩,
    ⟨"dstportstart", .optionalAttr "dstportstart" .unsignedShort⟩,
    ⟨"dstportend", .optionalAttr "dstportend" .unsignedShort⟩,
    ⟨"state", .optionalAttr "state" .string⟩]
  toTuple a := (a.srcipaddr, a.dstipaddr, a.srcportstart, a.dstportstart, a.dstportend, a.state,
    ())
  ofTuple := fun (srcipaddr, dstipaddr, srcportstart, dstportstart, dstportend, state, ()) =>
    { srcipaddr, dstipaddr, srcportstart, dstportstart, dstportend, state }
  ofTuple_toTuple _ := rfl
  toTuple_ofTuple _ := rfl

def IcmpMatch.record : Schema.Record IcmpMatch where
  members := [
    ⟨"srcipaddr", .optionalAttr "srcipaddr" .string⟩,
    ⟨"kind", .optionalAttr "type" .unsignedByte⟩,
    ⟨"code", .optionalAttr "code" .unsignedByte⟩]
  toTuple a := (a.srcipaddr, a.kind, a.code, ())
  ofTuple := fun (srcipaddr, kind, code, ()) =>
    { srcipaddr, kind, code }
  ofTuple_toTuple _ := rfl
  toTuple_ofTuple _ := rfl

def AllMatch.record : Schema.Record AllMatch where
  members := [
    ⟨"srcipaddr", .optionalAttr "srcipaddr" .string⟩,
    ⟨"dstipaddr", .optionalAttr "dstipaddr" .string⟩,
    ⟨"state", .optionalAttr "state" .string⟩]
  toTuple a := (a.srcipaddr, a.dstipaddr, a.state, ())
  ofTuple := fun (srcipaddr, dstipaddr, state, ()) =>
    { srcipaddr, dstipaddr, state }
  ofTuple_toTuple _ := rfl
  toTuple_ofTuple _ := rfl

def RuleMatch.variants : Schema.Variants RuleMatch where
  alternatives := [
    .element "Mac" "mac" (.group .macMatch),
    .element "Arp" "arp" (.group .arpMatch),
    .element "Ip" "ip" (.group .ipMatch),
    .element "Ipv6" "ipv6" (.group .ipMatch),
    .element "Tcp" "tcp" (.group .portMatch),
    .element "Udp" "udp" (.group .portMatch),
    .element "Icmp" "icmp" (.group .icmpMatch),
    .element "All" "all" (.group .allMatch)]
  toAny
    | .mac x => .inl x
    | .arp x => .inr (.inl x)
    | .ip x => .inr (.inr (.inl x))
    | .ipv6 x => .inr (.inr (.inr (.inl x)))
    | .tcp x => .inr (.inr (.inr (.inr (.inl x))))
    | .udp x => .inr (.inr (.inr (.inr (.inr (.inl x)))))
    | .icmp x => .inr (.inr (.inr (.inr (.inr (.inr (.inl x))))))
    | .all x => .inr (.inr (.inr (.inr (.inr (.inr (.inr (.inl x)))))))
  ofAny
    | .inl x => .mac x
    | .inr (.inl x) => .arp x
    | .inr (.inr (.inl x)) => .ip x
    | .inr (.inr (.inr (.inl x))) => .ipv6 x
    | .inr (.inr (.inr (.inr (.inl x)))) => .tcp x
    | .inr (.inr (.inr (.inr (.inr (.inl x))))) => .udp x
    | .inr (.inr (.inr (.inr (.inr (.inr (.inl x)))))) => .icmp x
    | .inr (.inr (.inr (.inr (.inr (.inr (.inr (.inl x))))))) => .all x
  ofAny_toAny a := by cases a <;> rfl
  toAny_ofAny
    | .inl _ => rfl
    | .inr (.inl _) => rfl
    | .inr (.inr (.inl _)) => rfl
    | .inr (.inr (.inr (.inl _))) => rfl
    | .inr (.inr (.inr (.inr (.inl _)))) => rfl
    | .inr (.inr (.inr (.inr (.inr (.inl _))))) => rfl
    | .inr (.inr (.inr (.inr (.inr (.inr (.inl _)))))) => rfl
    | .inr (.inr (.inr (.inr (.inr (.inr (.inr (.inl _))))))) => rfl

def Rule.series : Schema.SeriesRecord Rule where
  members := [
    ⟨"action", .attr "action" (.enum .ruleAction)⟩,
    ⟨"direction", .attr "direction" (.enum .ruleDirection)⟩,
    ⟨"priority", .optionalAttr "priority" (.ranged .filterPriority)⟩,
    ⟨"statematch", .optionalAttr "statematch" (.enum .stateMatch)⟩]
  key := "matches"
  choice := .ruleMatch
  min := 0
  toParts a := ((a.action, a.direction, a.priority, a.statematch, ()), a.criteria)
  ofParts := fun ((action, direction, priority, statematch, ()), criteria) =>
    { action, direction, priority, statematch, criteria }
  ofParts_toParts _ := rfl
  toParts_ofParts _ := rfl

def FilterEntry.variants : Schema.Variants FilterEntry where
  alternatives := [
    .element "Rule" "rule" (.series .rule),
    .element "Reference" "filterref" (.group .filterReference)]
  toAny
    | .rule x => .inl x
    | .reference x => .inr (.inl x)
  ofAny
    | .inl x => .rule x
    | .inr (.inl x) => .reference x
  ofAny_toAny a := by cases a <;> rfl
  toAny_ofAny
    | .inl _ => rfl
    | .inr (.inl _) => rfl

def Filter.series : Schema.SeriesRecord Filter where
  members := [
    ⟨"name", .attr "name" (.restricted .filterName)⟩,
    ⟨"chain", .optionalAttr "chain" (.union .filterChain)⟩,
    ⟨"priority", .optionalAttr "priority" (.ranged .filterPriority)⟩,
    ⟨"uuid", .optionalValueElement "uuid" (.restricted .uuid)⟩]
  key := "entries"
  choice := .filterEntry
  min := 0
  toParts a := ((a.name, a.chain, a.priority, a.uuid, ()), a.entries)
  ofParts := fun ((name, chain, priority, uuid, ()), entries) =>
    { name, chain, priority, uuid, entries }
  ofParts_toParts _ := rfl
  toParts_ofParts _ := rfl

end GuestXml
