import MqssClient.Addressing
import MqssClient.CApi.Allocation
import MqssClient.CApi.Exceptions
import MqssClient.CApi.Handles
import MqssClient.CApi.Instants
import MqssClient.CApi.JobNumber
import MqssClient.CApi.Resource
import MqssClient.CApi.ResultDocument
import MqssClient.Delivery
import MqssClient.Histogram
import MqssClient.Hpc.Blocking
import MqssClient.Hpc.Linearization
import MqssClient.Hpc.Refinement
import MqssClient.Hpc.Session
import MqssClient.JobIdentity
import MqssClient.Resource.Catalogue
import MqssClient.Resource.CouplingMap
import MqssClient.Resource.Document
import MqssClient.Resource.Entries
import MqssClient.Rest.Idempotence
import MqssClient.Rest.Refinement
import MqssClient.Timing
import MqssClient.Transparency
import MqssClient.Transport
import MqssClient.Wire
