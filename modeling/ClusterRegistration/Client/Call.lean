import ClusterRegistration.Client.Request

namespace ClusterRegistration

inductive Call where
  | ask (r : Request)
  | createIfAbsent (k : Kind) (input : ObjectInput k)
  | existence (k : Kind) (item : ItemName)

namespace Call

def Answer : Call → Type
  | .ask r => r.Answer
  | .createIfAbsent k _ => Option (Object k)
  | .existence _ _ => Bool

def request : Call → Request
  | .ask r => r
  | .createIfAbsent k input => .create k input
  | .existence k item => .get k item

def conclude : (c : Call) → Except ClusterError c.request.Answer → Except ClusterError c.Answer
  | .ask _, a => a
  | .createIfAbsent _ _, a => ClusterError.unlessExists a
  | .existence _ _, a => ClusterError.existence a

end Call

end ClusterRegistration
