import ClusterRegistration.Client.Address
import ClusterRegistration.Client.Call
import ClusterRegistration.Client.Connector
import ClusterRegistration.CommandLine.Run
import ClusterRegistration.Http.Playback
import ClusterRegistration.Json.Canonical
import ClusterRegistration.Json.Document
import ClusterRegistration.Kubeconfig.File
import ClusterRegistration.Main
import ClusterRegistration.Registration.Attempt
import ClusterRegistration.Registration.Name
import ClusterRegistration.Registration.Polling
import ClusterRegistration.Proofs.Registration.Attempt
import ClusterRegistration.Proofs.Scenario.Faults
import ClusterRegistration.Proofs.Registration.Course
import ClusterRegistration.Registration.Servers
import ClusterRegistration.Scenario.Attempts
import ClusterRegistration.Store.Basic
import ClusterRegistration.Proofs.Scenario.Effect
import ClusterRegistration.Proofs.Registration.Retry
import ClusterRegistration.Proofs.Scenario.Interruption
import ClusterRegistration.Proofs.Text.Base64
import ClusterRegistration.Proofs.Text.Utf8
import ClusterRegistration.Proofs.Yaml.Cursor
import ClusterRegistration.Proofs.Yaml.Plain
import ClusterRegistration.Proofs.Registration.Descriptor
import ClusterRegistration.Proofs.Registration.Issue
import ClusterRegistration.Proofs.Scenario.Convergence
import ClusterRegistration.Proofs.Yaml.Quoted
import ClusterRegistration.Proofs.Yaml.Literal
import ClusterRegistration.Proofs.Yaml.Block
import ClusterRegistration.Proofs.Yaml.Leaf
import ClusterRegistration.Proofs.Yaml.Key
import ClusterRegistration.Proofs.Yaml.Node
import ClusterRegistration.Proofs.Yaml.Document
import ClusterRegistration.Proofs.Yaml.Reading
import ClusterRegistration.Proofs.Kubeconfig.Text
import ClusterRegistration.Proofs.Registration.Consumer
import ClusterRegistration.Proofs.Scenario.Reference
import ClusterRegistration.Proofs.Registration.Transcript
import ClusterRegistration.Proofs.Registration.Answer
import ClusterRegistration.Proofs.Registration.Polling
import ClusterRegistration.Proofs.Registration.Executor
import ClusterRegistration.Proofs.Registration.Disclosure
import ClusterRegistration.Proofs.Scenario.Polling
import ClusterRegistration.Proofs.Scenario.Stability
import ClusterRegistration.Proofs.Scenario.Secrecy
import ClusterRegistration.Proofs.Scenario.Concurrency
import ClusterRegistration.Proofs.Scenario.Race
import ClusterRegistration.Proofs.Kubeconfig.File
import ClusterRegistration.Proofs.Store.History
import ClusterRegistration.Proofs.Object.RoundTrip
import ClusterRegistration.Proofs.Client.Equivalence
import ClusterRegistration.Proofs.Store.Recall
import ClusterRegistration.Proofs.Store.Enumeration
import ClusterRegistration.Proofs.Store.Naming
import ClusterRegistration.Proofs.Scenario.Pending
import ClusterRegistration.Proofs.Client.Classification
import ClusterRegistration.Proofs.Registration.Exchange
import ClusterRegistration.Proofs.Scenario.Credential
import ClusterRegistration.Proofs.Client.Blank
import ClusterRegistration.Proofs.Registration.Endpoint
import ClusterRegistration.Proofs.Registration.Addressing
import ClusterRegistration.Proofs.Registration.Usability
import ClusterRegistration.Proofs.Registration.Name
import ClusterRegistration.Proofs.Scenario.SelfRegistration
import ClusterRegistration.Proofs.Client.Authentication
import ClusterRegistration.Proofs.Kubeconfig.Resolution
import ClusterRegistration.Proofs.Kubeconfig.DefaultPath
import ClusterRegistration.Proofs.CommandLine.Clock
