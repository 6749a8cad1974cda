import SmsRelay.Spec.Terminal
import SmsRelay.Spec.Outcomes
import SmsRelay.Spec.Idempotency
import SmsRelay.Spec.InboundDedup
import SmsRelay.Spec.WriteLock
import SmsRelay.Spec.Fairness
import SmsRelay.Spec.Content
import SmsRelay.Spec.Topics
import SmsRelay.Spec.Unkeyed
import SmsRelay.Spec.Accepted
import SmsRelay.Spec.Senders
import SmsRelay.Spec.Migration
import SmsRelay.Spec.Page
import SmsRelay.Spec.Pruning
import SmsRelay.Spec.Instants
import SmsRelay.Spec.Reach
import SmsRelay.Spec.Confidentiality
import SmsRelay.Spec.GroupKey
import SmsRelay.Spec.Limiter
import SmsRelay.Spec.GroupText
import SmsRelay.Spec.Admission
import SmsRelay.Spec.Pacing
import SmsRelay.Spec.Atomicity
import SmsRelay.Spec.Authentication
import SmsRelay.Spec.Subscribers
import SmsRelay.Spec.Receipts
import SmsRelay.Spec.Polling
import SmsRelay.Spec.Fallback
import SmsRelay.Spec.Wire
import SmsRelay.Spec.Deliveries
import SmsRelay.Spec.Lifespan
import SmsRelay.Spec.Throttle
import SmsRelay.Spec.Stranded
import SmsRelay.Spec.Drain
import SmsRelay.Spec.Log
import SmsRelay.Spec.Outgoing
import SmsRelay.Spec.Bypass
import SmsRelay.Spec.Metrics
